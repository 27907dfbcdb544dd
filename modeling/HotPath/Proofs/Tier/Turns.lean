import HotPath.Proofs.Tier.Lifecycle

/-!
# What a step means for a name

`Supervised.counts` says when a step reports a call that is to be counted for a name, and
`cancelled?` which job a step gives up. `Turn` lists all that one step can mean for one name:
it leaves the name alone, or counts a call, or counts it and takes a job on, or ends the
job of the name in one of two ways. `next_turn` says that the list is complete, so that the
history of a name can be told without looking into the steps again.
-/

namespace HotPath

namespace CallCounts

variable (c : CallCounts) {name other : String}

/-- Dropping the entry of a name does not concern the other names. -/
theorem lookup_filter_ne (entries : List (String × Nat)) (different : other ≠ name) :
    (entries.filter fun entry => entry.1 ≠ name).lookup other = entries.lookup other := by
  induction entries with
  | nil => rfl
  | cons entry entries ih =>
    obtain ⟨key, count⟩ := entry
    by_cases dropped : key = name
    · subst dropped
      have absent : (other == key) = false := beq_eq_false_iff_ne.mpr different
      rw [List.filter_cons_of_neg (by simp), ih, List.lookup_cons, absent]
    · rw [List.filter_cons_of_pos (by simpa using dropped), List.lookup_cons, List.lookup_cons, ih]

/-- A call of a name is counted for it. -/
theorem get_bump_self (name : String) : (c.bump name).get name = c.get name + 1 := by
  simp [get, bump]

/-- A call of a name is not counted for another. -/
theorem get_bump_of_ne (different : other ≠ name) : (c.bump name).get other = c.get other := by
  have absent : (other == name) = false := beq_eq_false_iff_ne.mpr different
  simp only [get, bump, List.lookup_cons, absent]
  rw [lookup_filter_ne c.entries different]

end CallCounts

namespace Optimizer

variable {o later : Optimizer} {job : Job} {rest : List Job} {name : String}

/-- Where a name stands is a matter of what is published, marked and failed under it. -/
theorem stateOf_congr (named : later.named? name = o.named? name)
    (marked : later.isInFlight name = o.isInFlight name)
    (failed : later.hasFailed name = o.hasFailed name) : later.stateOf name = o.stateOf name := by
  simp only [stateOf, named, marked, failed]

/-- A name with a version is optimized, whatever else is noted under it. -/
theorem stateOf_of_named (offered : (o.named? name).isSome = true) :
    o.stateOf name = .optimized := by
  simp only [stateOf, offered, if_true]

/-- A name that is in flight is marked. -/
theorem isInFlight_of_stateOf (state : o.stateOf name = .inFlight) : o.isInFlight name = true := by
  unfold stateOf at state
  split at state
  next => cases state
  split at state
  next marked => exact marked
  split at state <;> cases state

/-- A name under which nothing is published and no job is marked has failed or is cold. -/
theorem stateOf_of_unmarked (unpublished : o.named? name = none)
    (unmarked : o.isInFlight name = false) :
    o.stateOf name = if o.hasFailed name then .failed else .cold := by
  simp only [stateOf, unpublished, unmarked, Option.isSome_none, Bool.false_eq_true, if_false]

/-- A name that is not settled is in flight or cold. -/
theorem stateOf_of_unsettled (unsettled : o.isSettled name = false) :
    o.stateOf name = if o.isInFlight name then .inFlight else .cold := by
  rw [isSettled, Bool.or_eq_false_iff] at unsettled
  simp only [stateOf, unsettled.1, unsettled.2, Bool.false_eq_true, if_false]

/-- The name of a job that is taken on is in flight. -/
theorem stateOf_submit (running : o.hasShutDown = false)
    (unsettled : o.isSettled job.name = false) : (o.submit job).stateOf job.name = .inFlight := by
  have still : (o.submit job).isSettled job.name = false := by
    rw [submit_eq running]
    exact unsettled
  have marked : (o.submit job).isInFlight job.name = true := by
    rw [submit_eq running, isInFlight_iff]
    exact ⟨job, List.mem_cons_self, rfl⟩
  rw [stateOf_of_unsettled still, marked]
  rfl

/-- Freeing one name leaves the marks of the others. -/
theorem isInFlight_unmark (o : Optimizer) (name other : String) :
    (o.unmark name).isInFlight other = (o.isInFlight other && decide (other ≠ name)) := by
  rw [Bool.eq_iff_iff, Bool.and_eq_true, isInFlight_iff, isInFlight_iff, decide_eq_true_iff]
  simp only [unmark, List.mem_filter, decide_eq_true_eq]
  constructor
  · rintro ⟨job, ⟨member, different⟩, rfl⟩
    exact ⟨⟨job, member, rfl⟩, different⟩
  · rintro ⟨⟨job, member, rfl⟩, different⟩
    exact ⟨job, ⟨member, different⟩, rfl⟩

/-- Where the other names stand does not change. -/
structure Spares (o later : Optimizer) (name : String) : Prop where
  named : later.named? name = o.named? name
  marked : later.isInFlight name = o.isInFlight name
  failed : later.hasFailed name = o.hasFailed name

namespace Spares

/-- A name that is spared stands where it stood. -/
theorem stateOf (spares : o.Spares later name) : later.stateOf name = o.stateOf name :=
  stateOf_congr spares.named spares.marked spares.failed

end Spares

section Others

variable (different : name ≠ job.name)

include different

/-- Giving a job up spares the other names. -/
theorem cancel_spares : o.Spares (o.cancel job) name where
  named := rfl
  marked := by
    unfold cancel
    rw [isInFlight_unmark]
    simp [isInFlight, different]
  failed := rfl

/-- A job that fails spares the other names. -/
theorem fail_spares : o.Spares (o.fail job) name where
  named := rfl
  marked := by
    unfold fail
    rw [isInFlight_unmark]
    simp [isInFlight, different]
  failed := by
    rw [Bool.eq_iff_iff, hasFailed_iff, hasFailed_iff]
    simp only [fail, unmark]
    split
    next => rfl
    next => simp [different]

/-- A job whose version is published spares the other names. -/
theorem publish_spares (version : Fusion) : o.Spares (o.publish job version) name := by
  unfold publish
  split
  next =>
    refine ⟨rfl, ?_, rfl⟩
    rw [isInFlight_unmark]
    simp [different]
  next =>
    refine ⟨?_, ?_, rfl⟩
    · simp [named?, unmark, Ne.symm different]
    · dsimp only
      rw [isInFlight_unmark]
      simp [isInFlight, different]

/-- Whatever a worker does with a job, it spares the other names. -/
theorem work_spares : o.Spares (o.work job) name := by
  rcases o.work_cases job with cancelled | ⟨inside, outside, attempted⟩
  · rw [cancelled]
    exact cancel_spares different
  · rw [attempted]
    rcases attempt_cases { o with gate := inside } job with failed | ⟨_, version, _, _, published⟩
    · rw [failed]
      exact { fail_spares (o := { o with gate := inside }) different with }
    · rw [published]
      exact { publish_spares (o := { o with gate := inside }) different version with }

end Others

/-- The job of a name has been ended: it has been given up and counted as such, and the name is
cold; or it has come to something, and the name is settled. -/
def Ended (o later : Optimizer) (name : String) : Prop :=
  (later.stateOf name = .cold ∧ later.tally.cancelled = o.tally.cancelled + 1) ∨
    ((later.stateOf name = .optimized ∨ later.stateOf name = .failed) ∧
      later.tally.cancelled = o.tally.cancelled)

namespace Consistent

/-- The name of a job that has been given up is cold, and the job is counted as given up. -/
theorem cancel_ended (consistent : o.Consistent (job :: rest)) :
    o.Ended (o.cancel job) job.name := by
  have unpublished : (o.cancel job).named? job.name = none :=
    consistent.unpublished job List.mem_cons_self
  have unmarked : (o.cancel job).isInFlight job.name = false := by
    unfold Optimizer.cancel
    rw [isInFlight_unmark]
    simp
  have unfailed : (o.cancel job).hasFailed job.name = false := by
    rw [Bool.eq_false_iff, ne_eq, hasFailed_iff]
    exact consistent.unfailed job List.mem_cons_self
  refine .inl ⟨?_, rfl⟩
  rw [stateOf_of_unmarked unpublished unmarked, unfailed]
  rfl

/-- The name of a job that has failed is settled, and no job is counted as given up. -/
theorem fail_settles (consistent : o.Consistent (job :: rest)) :
    ((o.fail job).stateOf job.name = .optimized ∨ (o.fail job).stateOf job.name = .failed) ∧
      (o.fail job).tally.cancelled = o.tally.cancelled := by
  have unpublished : (o.fail job).named? job.name = none :=
    consistent.unpublished job List.mem_cons_self
  have unmarked : (o.fail job).isInFlight job.name = false := by
    unfold Optimizer.fail
    rw [isInFlight_unmark]
    simp
  have failed : (o.fail job).hasFailed job.name = true := by
    rw [hasFailed_iff, consistent.failed_fail]
    exact List.mem_cons_self
  refine ⟨.inr ?_, rfl⟩
  rw [stateOf_of_unmarked unpublished unmarked, failed]
  rfl

/-- The name of a job whose version is published is optimized, and no job is counted as given up. -/
theorem publish_settles (consistent : o.Consistent (job :: rest)) (version : Fusion) :
    (o.publish job version).stateOf job.name = .optimized ∧
      (o.publish job version).tally.cancelled = o.tally.cancelled := by
  have offered : ((o.publish job version).named? job.name).isSome = true := by
    rw [Optimizer.named?, consistent.published_publish version]
    simp
  refine ⟨stateOf_of_named offered, ?_⟩
  rw [consistent.publish_eq version]
  rfl

/-- A job that is attempted comes to something, and its name is settled. -/
theorem attempt_settles (consistent : o.Consistent (job :: rest)) :
    ((o.attempt job).stateOf job.name = .optimized ∨
        (o.attempt job).stateOf job.name = .failed) ∧
      (o.attempt job).tally.cancelled = o.tally.cancelled := by
  rcases o.attempt_cases job with failed | ⟨_, version, _, _, published⟩
  · rw [failed]
    exact consistent.fail_settles
  · rw [published]
    exact (consistent.publish_settles version).imp_left .inl

/-- The job of a name ends with the name cold and one job more given up, or with the name
settled. -/
theorem work_ended (consistent : o.Consistent (job :: rest)) :
    o.Ended (o.work job) job.name := by
  rcases o.work_cases job with cancelled | ⟨inside, outside, attempted⟩
  · rw [cancelled]
    exact consistent.cancel_ended
  · rw [attempted]
    exact .inr (consistent.withGate inside).attempt_settles

end Consistent

/-- An attempt at a job counts no call, changes no setting, and does not touch the gate. -/
theorem attempt_keeps (o : Optimizer) (job : Job) :
    (o.attempt job).calls = o.calls ∧ (o.attempt job).settings = o.settings ∧
      (o.attempt job).gate = o.gate := by
  rcases o.attempt_cases job with failed | ⟨_, version, _, _, published⟩
  · rw [failed]
    exact ⟨rfl, rfl, rfl⟩
  · rw [published]
    unfold publish
    split
    next => exact ⟨rfl, rfl, rfl⟩
    next => exact ⟨rfl, rfl, rfl⟩

/-- Ending a job counts no call and changes no setting. -/
theorem work_keeps (o : Optimizer) (job : Job) :
    (o.work job).calls = o.calls ∧ (o.work job).settings = o.settings := by
  rcases o.work_cases job with cancelled | ⟨inside, outside, attempted⟩
  · rw [cancelled]
    exact ⟨rfl, rfl⟩
  · obtain ⟨calls, settings, _⟩ := attempt_keeps { o with gate := inside } job
    rw [attempted]
    exact ⟨calls, settings⟩

/-- A name with a job in the queue is in flight. -/
theorem Sound.stateOf_of_mem (sound : o.Sound) (queued : job ∈ o.queue) :
    o.stateOf job.name = .inFlight := by
  have marked : o.isInFlight job.name = true :=
    (sound.isInFlight_iff_mem job.name).mpr (List.mem_map_of_mem queued)
  obtain ⟨unfailed, unpublished⟩ := sound.unsettled marked
  simp only [stateOf, unpublished, marked, Option.isSome_none, Bool.false_eq_true, if_false, if_true]

/-- A call of a function concerns no other name. -/
theorem Sound.recordCall_spares (sound : o.Sound) {other : String} (index : Nat)
    (different : name ≠ other) :
    (o.recordCall index other).stateOf name = o.stateOf name ∧
      (o.recordCall index other).callCount name = o.callCount name := by
  rcases o.recordCall_cases index other with same | counted | ⟨enabled, _, _, admitted⟩
  · rw [same]
    exact ⟨rfl, rfl⟩
  · rw [counted]
    exact ⟨rfl, o.calls.get_bump_of_ne different⟩
  · have running : ({ o with calls := o.calls.bump other } : Optimizer).hasShutDown = false :=
      sound.consistent.running enabled
    rw [admitted, submit_eq running]
    refine ⟨stateOf_congr rfl ?_ rfl, o.calls.get_bump_of_ne different⟩
    simp [isInFlight, Ne.symm different]

/-- A name is settled if a version is published or it has failed. -/
theorem Sound.isSettled_iff (sound : o.Sound) :
    o.isSettled name = true ↔ o.stateOf name = .optimized ∨ o.stateOf name = .failed := by
  constructor
  · intro settled
    cases offered : (o.named? name).isSome with
    | true => exact .inl (stateOf_of_named offered)
    | false =>
      have failed : o.hasFailed name = true := by
        rwa [isSettled, offered, Bool.false_or] at settled
      have unmarked : o.isInFlight name = false := by
        rw [Bool.eq_false_iff]
        intro marked
        exact (sound.unsettled marked).1 (hasFailed_iff.mp failed)
      rw [Option.isSome_eq_false_iff, Option.isNone_iff_eq_none] at offered
      exact .inr (by rw [stateOf_of_unmarked offered unmarked, failed]; rfl)
  · intro state
    cases settled : o.isSettled name with
    | true => rfl
    | false =>
      rw [stateOf_of_unsettled settled] at state
      split at state <;> simp at state

/-- Calls are counted as long as they have not been disabled; shutdown disables them. -/
theorem Sound.isEnabled_eq (sound : o.Sound) : o.isEnabled = o.enabled := by
  cases enabled : o.enabled with
  | false => simp [isEnabled, enabled]
  | true => simp [isEnabled, enabled, sound.consistent.running enabled]

end Optimizer

namespace Supervised

/-- Whether a step reports a call that is to be counted for a name: calls are counted, and the
name is neither published nor failed. -/
def counts (s : Supervised) (name : String) : Event → Bool
  | .call index =>
    (s.optimizer.program.functions[index]?.any fun f => f.name = name) && s.optimizer.isEnabled &&
      s.optimizer.stateOf name ≠ .optimized && s.optimizer.stateOf name ≠ .failed
  | _ => false

/-- The job that a step takes off the queue. -/
def taken? (s : Supervised) : Event → Option Job
  | .work position => s.optimizer.queue[position]?
  | .expire position => s.optimizer.queue[position]?
  | _ => none

/-- The job that a step gives up: the step takes it off the queue, and one job more is counted as
cancelled. -/
def cancelled? (s : Supervised) (event : Event) : Option Job :=
  if s.optimizer.tally.cancelled < (s.next event).optimizer.tally.cancelled then s.taken? event
  else none

/-- What the step from `s` to `t` means for a name. -/
inductive Turn (s t : Supervised) (name : String) (event : Event) : Prop where
  | spared (uncounted : s.counts name event = false)
      (calls : t.optimizer.callCount name = s.optimizer.callCount name)
      (state : t.optimizer.stateOf name = s.optimizer.stateOf name)
  /-- A call is counted, and that is all: there is a job already, or the name is not hot yet. -/
  | counted (counted : s.counts name event = true)
      (calls : t.optimizer.callCount name = s.optimizer.callCount name + 1)
      (state : t.optimizer.stateOf name = s.optimizer.stateOf name)
      (waits : s.optimizer.stateOf name = .inFlight ∨
        s.optimizer.stateOf name = .cold ∧
          t.optimizer.callCount name < s.optimizer.settings.threshold)
  /-- A call is counted, and a job is taken on. -/
  | admitted {index : Nat} (called : event = .call index) (counted : s.counts name event = true)
      (calls : t.optimizer.callCount name = s.optimizer.callCount name + 1)
      (hot : s.optimizer.settings.threshold ≤ t.optimizer.callCount name)
      (before : s.optimizer.stateOf name = .cold) (state : t.optimizer.stateOf name = .inFlight)
      (queue : t.optimizer.queue = s.optimizer.queue ++ [⟨name, index⟩])
      (tally : t.optimizer.tally.admitted = s.optimizer.tally.admitted + 1)
  /-- The job comes to something: a version, or the finding that there is none. -/
  | settled (uncounted : s.counts name event = false)
      (calls : t.optimizer.callCount name = s.optimizer.callCount name)
      (before : s.optimizer.stateOf name = .inFlight)
      (state : t.optimizer.stateOf name = .optimized ∨ t.optimizer.stateOf name = .failed)
  /-- The job is given up. -/
  | cancelled {job : Job} (uncounted : s.counts name event = false)
      (calls : t.optimizer.callCount name = s.optimizer.callCount name)
      (before : s.optimizer.stateOf name = .inFlight) (state : t.optimizer.stateOf name = .cold)
      (given : s.cancelled? event = some job) (named : job.name = name)

section Steps

variable {s : Supervised} {name : String}

/-- The only step that is counted is a call of a function of that name, while calls are counted
and the name is not settled. -/
theorem counts_eq_true_iff (sound : s.optimizer.Sound) {event : Event} :
    s.counts name event = true ↔ ∃ index f, event = .call index ∧
      s.optimizer.program.functions[index]? = some f ∧ f.name = name ∧
      s.optimizer.enabled = true ∧ s.optimizer.isSettled name = false := by
  have unsettled : s.optimizer.isSettled name = false ↔
      s.optimizer.stateOf name ≠ .optimized ∧ s.optimizer.stateOf name ≠ .failed := by
    rw [← not_or, ← sound.isSettled_iff, Bool.not_eq_true]
  cases event with
  | call index =>
    rw [unsettled, ← sound.isEnabled_eq]
    cases found : s.optimizer.program.functions[index]? with
    | none => simp [counts, found]
    | some f => simp [counts, found, and_assoc]
  | _ => simp [counts]

/-- What a call means for a name. -/
theorem call_turn (sound : s.optimizer.Sound) (name : String) (index : Nat) :
    s.Turn (s.next (.call index)) name (.call index) := by
  cases found : s.optimizer.program.functions[index]? with
  | none =>
    have same : s.next (.call index) = s := by simp [next, found]
    rw [same]
    refine .spared ?_ rfl rfl
    simp [counts, found]
  | some f =>
    have reported : s.next (.call index) =
        { s with optimizer := s.optimizer.recordCall index f.name } := by
      simp [next, found]
    rw [reported]
    by_cases named : f.name = name
    case neg =>
      obtain ⟨state, calls⟩ := sound.recordCall_spares index (Ne.symm named)
      refine .spared ?_ calls state
      simp [counts, found, named]
    subst named
    rcases s.optimizer.recordCall_split index f.name with
      ⟨ignored, same⟩ | ⟨⟨enabled, unsettled⟩, outcome⟩
    · rw [same]
      refine .spared ?_ rfl rfl
      rw [Bool.eq_false_iff, ne_eq, counts_eq_true_iff sound]
      rintro ⟨_, _, _, _, _, enabled, unsettled⟩
      simp [enabled, unsettled] at ignored
    have counted : s.counts f.name (.call index) = true :=
      (counts_eq_true_iff sound).mpr ⟨index, f, rfl, found, rfl, enabled, unsettled⟩
    have calls := s.optimizer.calls.get_bump_self f.name
    have before := Optimizer.stateOf_of_unsettled unsettled
    rcases outcome with ⟨quiet, same⟩ | ⟨⟨unmarked, hot⟩, same⟩
    · rw [same]
      refine .counted counted calls rfl ?_
      cases marked : s.optimizer.isInFlight f.name with
      | true =>
        rw [marked] at before
        exact .inl before
      | false =>
        rw [marked] at before
        simp only [marked, Bool.false_eq_true, false_or] at quiet
        exact .inr ⟨before, quiet⟩
    · let bumped : Optimizer := { s.optimizer with calls := s.optimizer.calls.bump f.name }
      have running : bumped.hasShutDown = false := sound.consistent.running enabled
      have taken := Optimizer.submit_eq running ⟨f.name, index⟩
      rw [unmarked] at before
      rw [same]
      refine .admitted rfl counted ?_ ?_ before ?_ ?_ ?_
      · rw [taken]
        exact calls
      · rw [taken]
        exact hot
      · have still : bumped.isSettled (⟨f.name, index⟩ : Job).name = false := unsettled
        exact Optimizer.stateOf_submit running still
      · rw [taken]
      · rw [taken]

/-- What the end of a job that was in the queue means for a name. -/
theorem ended_turn (sound : s.optimizer.Sound) (name : String) {event : Event} {job : Job}
    {rest : List Job} {later : Optimizer} (queued : job ∈ s.optimizer.queue)
    (uncounted : s.counts name event = false) (taken : s.taken? event = some job)
    (ended : Optimizer.Ended { s.optimizer with queue := rest } later job.name)
    (spares : ∀ other, other ≠ job.name →
      Optimizer.Spares { s.optimizer with queue := rest } later other)
    (calls : later.calls = s.optimizer.calls)
    (left : s.next event = { s with optimizer := later.finishJob }) :
    s.Turn (s.next event) name event := by
  have count : (s.next event).optimizer.callCount name = s.optimizer.callCount name := by
    rw [left]
    exact congrArg (CallCounts.get · name) calls
  by_cases named : job.name = name
  case neg =>
    refine .spared uncounted count ?_
    rw [left]
    exact (spares name (Ne.symm named)).stateOf
  subst named
  have before := sound.stateOf_of_mem queued
  rcases ended with ⟨cold, tally⟩ | ⟨state, _⟩
  · have given : s.cancelled? event = some job := by
      have more : s.optimizer.tally.cancelled < (s.next event).optimizer.tally.cancelled := by
        rw [left]
        exact Nat.lt_of_lt_of_eq (Nat.lt_succ_self _) tally.symm
      rw [cancelled?, if_pos more, taken]
    refine .cancelled uncounted count before ?_ given rfl
    rw [left]
    exact cold
  · refine .settled uncounted count before ?_
    rw [left]
    exact state

/-- Every step is one of the turns, for every name. -/
theorem next_turn (sound : s.optimizer.Sound) (name : String) (event : Event) :
    s.Turn (s.next event) name event := by
  cases event with
  | call index => exact call_turn sound name index
  | work position =>
    cases found : s.optimizer.queue[position]? with
    | none =>
      have same : s.next (.work position) = s := by simp [next, Optimizer.process, found]
      rw [same]
      exact .spared rfl rfl rfl
    | some job =>
      have off := sound.takeOff (Optimizer.queue_perm found)
      refine ended_turn sound name (List.mem_of_getElem? found) rfl found off.work_ended
        (fun _ different => Optimizer.work_spares different) (Optimizer.work_keeps _ job).1 ?_
      simp [next, Optimizer.process, found]
  | expire position =>
    cases found : s.optimizer.queue[position]? with
    | none =>
      have same : s.next (.expire position) = s := by simp [next, Optimizer.expire, found]
      rw [same]
      exact .spared rfl rfl rfl
    | some job =>
      have off := sound.takeOff (Optimizer.queue_perm found)
      refine ended_turn sound name (List.mem_of_getElem? found) rfl found off.cancel_ended
        (fun _ different => Optimizer.cancel_spares different) rfl ?_
      simp [next, Optimizer.expire, found]
  | hold => exact .spared rfl rfl rfl
  | handBack => exact .spared rfl rfl rfl
  | enable =>
    simp only [next, Optimizer.enable]
    split
    next => exact .spared rfl rfl rfl
    next => exact .spared rfl rfl rfl
  | disable => exact .spared rfl rfl rfl
  | shutdown =>
    simp only [next, Optimizer.shutdown]
    split
    next => exact .spared rfl rfl rfl
    next => exact .spared rfl rfl rfl

/-- No step changes the settings. -/
theorem next_settings (s : Supervised) (event : Event) :
    (s.next event).optimizer.settings = s.optimizer.settings := by
  cases event with
  | call index =>
    unfold next
    dsimp only
    split
    next f _ =>
      rcases s.optimizer.recordCall_cases index f.name with same | counted | ⟨_, _, _, admitted⟩
      · rw [same]
      · rw [counted]
      · rw [admitted]
        unfold Optimizer.submit
        dsimp only
        split <;> rfl
    next => rfl
  | work position =>
    rcases s.optimizer.process_cases position with same | ⟨job, rest, _, worked⟩
    · exact congrArg Optimizer.settings same
    · exact (congrArg Optimizer.settings worked).trans (Optimizer.work_keeps _ job).2
  | expire position =>
    rcases s.optimizer.expire_cases position with same | ⟨job, rest, _, expired⟩
    · exact congrArg Optimizer.settings same
    · exact (congrArg Optimizer.settings expired).trans rfl
  | hold => rfl
  | handBack => rfl
  | enable =>
    simp only [next, Optimizer.enable]
    split <;> rfl
  | disable => rfl
  | shutdown =>
    simp only [next, Optimizer.shutdown]
    split <;> rfl

end Steps

end Supervised

end HotPath
