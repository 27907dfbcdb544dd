import HotPath.Proofs.Machine.Composition
import HotPath.Proofs.Machine.Framing
import HotPath.Proofs.Machine.Transparency

/-!
# Limits that are not reached do not matter

A machine looks at its limits in four places: where a value is pushed, where an array is created,
where a function is entered and where the arguments of a call are put on the stack. In each of them
a limit decides between going on and a fault that names it. `Struck` says that the machine
has come to such a fault, and as long as it has not, higher limits make no difference at
all: the two machines go through the same states, apart from the limits themselves
(`run_withLimits`), and a call ends in the same way (`call_withLimits`).

That the parts of an instruction keep to this is an induction on how they are put together
(`Composed.widens`). The values in hand matter in one place. A push that finds no room
gives the value back first, and what it reports is the failure of that, if it fails. On a balanced
machine it never does, so the limit is what is reported.
-/

namespace HotPath

/-- Every limit is at most the other one. -/
structure Limits.Within (low high : Limits) : Prop where
  callDepth : low.callDepth ≤ high.callDepth
  stackSize : low.stackSize ≤ high.stackSize
  arrayLength : low.arrayLength ≤ high.arrayLength

namespace Machine

open HotPath.Action

/-- The same machine with other limits. -/
def withLimits (limits : Limits) (m : Machine) : Machine :=
  { m with limits, stack := { m.stack with limit := limits.stackSize } }

/-- The machine keeps to these limits. -/
structure KeepsTo (limits : Limits) (m : Machine) : Prop where
  bounds : m.limits = limits
  capacity : m.stack.limit = limits.stackSize

section Parts

variable {α β : Type} {low high : Limits} {strikes : Fault → Prop}

/-- Unless it faults by one of `strikes`, the action does the same if the limits are raised. -/
def Widens (low high : Limits) (strikes : Fault → Prop) (action : Action Machine α) : Prop :=
  ∀ m, m.KeepsTo low →
    match action m with
    | .ok answer after =>
      after.KeepsTo low ∧ action (m.withLimits high) = .ok answer (after.withLimits high)
    | .error fault after =>
      strikes fault ∨
        after.KeepsTo low ∧ action (m.withLimits high) = .error fault (after.withLimits high)

namespace Widens

/-- Answering looks at no limit. -/
theorem pure (answer : α) : Widens low high strikes (Pure.pure answer) :=
  fun _ keeps => ⟨keeps, rfl⟩

/-- Giving up looks at no limit. -/
theorem throw (fault : Fault) :
    Widens low high strikes (MonadExcept.throw fault : Action Machine α) :=
  fun _ keeps => .inr ⟨keeps, rfl⟩

/-- A sequence widens if its actions do. -/
theorem bind {first : Action Machine α} {rest : α → Action Machine β}
    (early : Widens low high strikes first)
    (late : ∀ answer, Widens low high strikes (rest answer)) :
    Widens low high strikes (first >>= rest) := by
  intro m keeps
  have early := early m keeps
  rw [bind_apply]
  cases ran : first m with
  | ok answer between =>
    rw [ran] at early
    obtain ⟨kept, same⟩ := early
    rw [bind_of_ok same]
    exact late answer between kept
  | error fault between =>
    rw [ran] at early
    refine early.imp_right fun ⟨kept, same⟩ => ⟨kept, ?_⟩
    rw [bind_of_error same]

/-- A fault that is held back is that of no limit, so it is the same under wider ones. -/
theorem attempt {first : Action Machine α} {rest : Except Fault α → Action Machine β}
    (early : Widens low high (fun _ => False) first) (ordinary : FaultsWith Fault.Ordinary first)
    (answered : ∀ answer, Widens low high strikes (rest (.ok answer)))
    (faulted : ∀ fault, fault.Ordinary → Widens low high strikes (rest (.error fault))) :
    Widens low high strikes (Action.attempt first >>= rest) := by
  intro m keeps
  have early := early m keeps
  rw [bind_apply, bind_apply]
  unfold Action.attempt
  cases ran : first m with
  | ok answer between =>
    rw [ran] at early
    obtain ⟨kept, same⟩ := early
    rw [same]
    exact answered answer between kept
  | error fault between =>
    rw [ran] at early
    obtain ⟨kept, same⟩ := early.resolve_left id
    rw [same]
    exact faulted fault (ordinary m fault between ran) between kept

/-- An action that strikes no limit leaves the same machine behind, apart from the limits. -/
theorem after {action : Action Machine α} (spec : Widens low high (fun _ => False) action)
    {m : Machine} (keeps : m.KeepsTo low) :
    (action.after m).KeepsTo low ∧
      action.after (m.withLimits high) = (action.after m).withLimits high := by
  have spec := spec m keeps
  unfold Action.after
  cases ran : action m with
  | ok answer between =>
    rw [ran] at spec
    obtain ⟨kept, same⟩ := spec
    rw [same]
    exact ⟨kept, rfl⟩
  | error fault between =>
    rw [ran] at spec
    obtain ⟨kept, same⟩ := spec.resolve_left id
    rw [same]
    exact ⟨kept, rfl⟩

/-- Two actions that strike no limit are both carried out under wider ones as well. -/
theorem both {first second : Action Machine Unit} (early : Widens low high (fun _ => False) first)
    (late : Widens low high (fun _ => False) second) :
    Widens low high strikes (Action.both first second) := by
  intro m keeps
  have early := early m keeps
  unfold Action.both
  cases ran : first m with
  | ok _ between =>
    rw [ran] at early
    obtain ⟨kept, same⟩ := early
    have late := late between kept
    rw [same]
    dsimp only
    cases follows : second between with
    | ok _ last =>
      rw [follows] at late
      exact late
    | error fault last =>
      rw [follows] at late
      exact .inr (late.resolve_left id)
  | error fault between =>
    rw [ran] at early
    obtain ⟨kept, same⟩ := early.resolve_left id
    obtain ⟨left, alike⟩ := late.after kept
    rw [same]
    dsimp only
    rw [alike]
    exact .inr ⟨left, rfl⟩

/-- What happens on the heap looks at no limit. -/
theorem onHeap (action : Action Heap α) : Widens low high strikes (onHeap action) := by
  rintro ⟨limits, heap, stack, calls, output, counts⟩ ⟨bounds, capacity⟩
  simp only [Machine.onHeap, withLimits]
  cases action heap with
  | ok answer between => exact ⟨⟨bounds, capacity⟩, rfl⟩
  | error fault between => exact .inr ⟨⟨bounds, capacity⟩, rfl⟩

/-- What happens on the slots looks at no limit. -/
theorem onLocals (action : Action (Locals × Heap) α) :
    Widens low high strikes (onLocals action) := by
  rintro ⟨limits, heap, stack, calls, output, counts⟩ ⟨bounds, capacity⟩
  unfold Machine.onLocals withLimits
  obtain rfl | ⟨frame, callers, rfl⟩ := calls.eq_empty_or_push
  · exact .inr ⟨⟨bounds, capacity⟩, rfl⟩
  · dsimp only [CallStack.pop?_push]
    cases action (frame.locals, heap) with
    | ok answer between => exact ⟨⟨bounds, capacity⟩, rfl⟩
    | error fault between => exact .inr ⟨⟨bounds, capacity⟩, rfl⟩

/-- An action that does not depend on the limit keeps it. -/
theorem limit_of_unbounded {action : Action (OperandStack × Heap) α} (unbounded : Unbounded action)
    (stack : OperandStack) (heap : Heap) :
    (action.after (stack, heap)).1.limit = stack.limit := by
  have same := unbounded stack heap stack.limit
  unfold Action.after
  cases ran : action (stack, heap) with
  | ok answer between =>
    rw [ran] at same
    injection same with _ kept
    rw [kept]
  | error fault between =>
    rw [ran] at same
    injection same with _ kept
    rw [kept]

/-- What happens on the operands without regard to their number looks at no limit. -/
theorem onStack {action : Action (OperandStack × Heap) α} (unbounded : Unbounded action) :
    Widens low high strikes (onStack action) := by
  rintro ⟨limits, heap, stack, calls, output, counts⟩ ⟨bounds, capacity⟩
  have kept := limit_of_unbounded unbounded stack heap
  have same := unbounded stack heap high.stackSize
  unfold Action.after at kept
  unfold Machine.onStack withLimits
  dsimp only
  cases ran : action (stack, heap) with
  | ok answer between =>
    rw [ran] at same kept
    rw [same]
    exact ⟨⟨bounds, kept.trans capacity⟩, rfl⟩
  | error fault between =>
    rw [ran] at same kept
    rw [same]
    exact .inr ⟨⟨bounds, kept.trans capacity⟩, rfl⟩

section Limited

variable (within : low.Within high)

include within

/-- A push for which there is room has room if there may be more operands. -/
theorem push (full : ∀ fault : Fault, fault.Crowded → strikes fault) (value : Value) :
    Widens low high strikes (push value) := by
  rintro ⟨limits, heap, stack, calls, output, counts⟩ ⟨bounds, capacity⟩
  dsimp only at bounds capacity
  unfold Machine.push Machine.onStack withLimits OperandStack.pushOrRelease OperandStack.push
  by_cases room : stack.entries.size < stack.limit
  · have more : stack.entries.size < high.stackSize :=
      Nat.lt_of_lt_of_le room (capacity ▸ within.stackSize)
    simp only [room, more, if_true]
    exact ⟨⟨bounds, capacity⟩, trivial⟩
  · simp only [room, if_false]
    cases released : Heap.releaseValue value heap with
    | ok _ between => exact .inl (full _ (.inl ⟨_, rfl⟩))
    | error fault between =>
      exact .inl (full _ (.inr (Heap.releaseValue_blames value _ _ _ released)))

/-- The same for a copy of the top operand. -/
theorem dup (full : ∀ fault : Fault, fault.Crowded → strikes fault) :
    Widens low high strikes (Machine.onStack OperandStack.dup) := by
  rintro ⟨limits, heap, stack, calls, output, counts⟩ ⟨bounds, capacity⟩
  dsimp only at bounds capacity
  have same : ({ stack with limit := high.stackSize } : OperandStack).peek = stack.peek := rfl
  unfold Machine.onStack withLimits OperandStack.dup
  simp only [bind_apply, onLeft, Action.ofExcept, same]
  cases stack.peek with
  | error fault => exact .inr ⟨⟨bounds, capacity⟩, rfl⟩
  | ok value =>
    simp only [OperandStack.push]
    by_cases room : stack.entries.size < stack.limit
    · have more : stack.entries.size < high.stackSize :=
        Nat.lt_of_lt_of_le room (capacity ▸ within.stackSize)
      simp only [room, more, if_true, onRight]
      cases Heap.retainValue value heap with
      | ok _ between => exact ⟨⟨bounds, capacity⟩, rfl⟩
      | error fault between => exact .inr ⟨⟨bounds, capacity⟩, rfl⟩
    · simp only [room, if_false]
      exact .inl (full _ (.inl ⟨_, rfl⟩))

/-- A length that an array may have is one that it may have if it may be longer. -/
theorem measure (long : ∀ fault : Fault, fault.Oversized → strikes fault) (requested : Int64) :
    Widens low high strikes
      (Action.ofExcept fun m => arrayLength m.limits.arrayLength requested) := by
  rintro m ⟨bounds, capacity⟩
  have raised : (m.withLimits high).limits = high := rfl
  simp only [Action.ofExcept, raised, bounds, arrayLength]
  by_cases negative : requested.toInt < 0
  · rw [if_pos negative, if_pos negative]
    exact .inr ⟨⟨bounds, capacity⟩, rfl⟩
  rw [if_neg negative, if_neg negative]
  by_cases oversized : low.arrayLength < requested.toInt.toNat
  · rw [if_pos oversized]
    exact .inl (long _ ⟨requested, _, oversized, rfl⟩)
  · have fits : ¬ high.arrayLength < requested.toInt.toNat :=
      fun longer => oversized (Nat.lt_of_le_of_lt within.arrayLength longer)
    rw [if_neg oversized, if_neg fits]
    exact ⟨⟨bounds, capacity⟩, rfl⟩

end Limited

/-- Going to an address looks at no limit. -/
theorem goto (address : Nat) : Widens low high strikes (goto address) := by
  rintro ⟨limits, heap, stack, calls, output, counts⟩ ⟨bounds, capacity⟩
  obtain rfl | ⟨frame, callers, rfl⟩ := calls.eq_empty_or_push
  · exact .inr ⟨⟨bounds, capacity⟩, rfl⟩
  · exact ⟨⟨bounds, capacity⟩, rfl⟩

/-- Taking a frame off looks at no limit. -/
theorem popFrame : Widens low high strikes popFrame := by
  rintro ⟨limits, heap, stack, calls, output, counts⟩ ⟨bounds, capacity⟩
  obtain rfl | ⟨frame, callers, rfl⟩ := calls.eq_empty_or_push
  · exact .inr ⟨⟨bounds, capacity⟩, rfl⟩
  · exact ⟨⟨bounds, capacity⟩, rfl⟩

/-- Going on in the caller looks at no limit. -/
theorem resumeCaller (frame : Frame) : Widens low high strikes (resumeCaller frame) := by
  rintro ⟨limits, heap, stack, calls, output, counts⟩ ⟨bounds, capacity⟩
  obtain rfl | ⟨caller, callers, rfl⟩ := calls.eq_empty_or_push
  · exact ⟨⟨bounds, capacity⟩, rfl⟩
  · exact ⟨⟨bounds, capacity⟩, rfl⟩

end Widens

/-- Whatever is composed of parts does the same if the limits are raised, unless it strikes one. -/
theorem Composed.widens (within : low.Within high) {action : Action Machine α}
    (composed : Composed strikes action) : Widens low high strikes action := by
  induction composed with
  | pure answer => exact .pure answer
  | throw ordinary => exact .throw _
  | bind early late first second => exact first.bind second
  | attempt early answered faulted first second third =>
    exact .attempt first early.ordinary second third
  | both early late first second => exact first.both second
  | onHeap ordinary => exact .onHeap _
  | onLocals ordinary => exact .onLocals _
  | onStack ordinary unbounded => exact .onStack unbounded
  | push full value => exact .push within full value
  | dup full => exact .dup within full
  | measure long requested => exact .measure within long requested
  | printLine line => exact fun _ keeps => ⟨⟨keeps.bounds, keeps.capacity⟩, rfl⟩
  | goto address => exact .goto address
  | popFrame => exact .popFrame
  | resumeCaller frame => exact .resumeCaller frame

/-- A jump that leads out of its function faults if it is taken. -/
theorem jump_astray (condition : Condition) (fault : Fault) :
    jump condition (.error fault) = do
      if ← takes condition then MonadExcept.throw fault else return .next := by
  cases condition with
  | always => rfl
  | when expected =>
    funext m
    simp only [jump, takes, bind_apply]
    cases popBool m with
    | error other after => rfl
    | ok b after =>
      by_cases taken : b = expected
      · simp only [taken, if_true]
        rfl
      · simp [taken]

/-- An instruction does the same if the limits are raised, unless it strikes one. -/
theorem perform_widens (within : low.Within high) (p : Program) (i : Instruction)
    (address length : Nat) : Widens low high (Strikes i) (perform p i address length) := by
  by_cases inside : i.opcode.isJump = true → ∃ target, jumpTarget i address length = .ok target
  · exact (perform_composed p inside).widens within
  · obtain ⟨jumps, astray⟩ := Classical.not_imp.mp inside
    obtain ⟨condition, opcode⟩ := exists_condition_of_isJump jumps
    cases leads : jumpTarget i address length with
    | ok target => exact absurd ⟨target, leads⟩ astray
    | error fault =>
      rw [perform_jump p opcode, leads, jump_astray]
      refine ((Composed.takes condition).widens within).bind fun taken => ?_
      cases taken with
      | false => exact .pure _
      | true => exact .throw fault

/-- A function that is entered is entered if there may be more calls. -/
theorem enter_widens (within : low.Within high) (index : Nat) (f : Function)
    (returnAddress : Option Nat) :
    Widens low high (fun fault => ∃ limit, fault = .callStackOverflow limit)
      (enter index f returnAddress) := by
  rintro m ⟨bounds, capacity⟩
  have raised : (m.withLimits high).limits = high := rfl
  unfold enter
  by_cases deep : m.limits.callDepth ≤ m.depth
  · rw [if_pos deep]
    exact .inl ⟨_, rfl⟩
  have room : ¬ (m.withLimits high).limits.callDepth ≤ (m.withLimits high).depth := by
    rw [raised]
    exact fun deeper => deep (Nat.le_trans (bounds ▸ within.callDepth) deeper)
  rw [if_neg deep, if_neg room]
  by_cases few : m.stack.visible < f.arity
  · have starved : (m.withLimits high).stack.visible < f.arity := few
    rw [if_pos few, if_pos starved]
    exact .inr ⟨⟨bounds, capacity⟩, rfl⟩
  · have served : ¬ (m.withLimits high).stack.visible < f.arity := few
    rw [if_neg few, if_neg served]
    exact ⟨⟨bounds, capacity⟩, rfl⟩

end Parts

/-- A fault, with the machine as it stands then, that comes of a limit: a frame or an operand too
many, or an array that would have been too long, at the instruction that asked for it. -/
inductive Struck (after : Machine) : Fault → Prop where
  | calls (limit : Nat) : Struck after (.callStackOverflow limit)
  | operands (limit : Nat) : Struck after (.stackOverflow limit)
  | array {frame : Frame} {callers : List Frame} (frames : after.frames = frame :: callers)
    {i : Instruction} (here : frame.function.code.Has frame.pc i)
    (opcode : i.opcode = .newArray) {requested : Int64} {limit : Nat}
    (oversized : limit < requested.toInt.toNat) :
    Struck after (.arrayIndexOutOfBounds requested limit)

section Steps

variable {low high : Limits} {p : Program}

/-- On a balanced machine a push without room reports that there is none. -/
theorem struck_of_crowded {fault : Fault} (crowded : fault.Crowded)
    (spared : fault.blamesCounting = false) (after : Machine) : Struck after fault := by
  rcases crowded with ⟨limit, rfl⟩ | blames
  · exact .operands limit
  · rw [blames] at spared
    cases spared

/-- An instruction that keeps control faults where the frame stands at it. -/
theorem exists_plug_of_failed {c : Core} {s : Surroundings} {i : Instruction}
    (here : s.frame.function.code.Has s.frame.pc i) (stays : i.opcode.isTransfer = false)
    {fault : Fault} {after : Machine} (failed : advance p (c.plug s) = .error fault after) :
    ∃ core : Core, after = core.plug (s.counted 1) := by
  have follows := perform_follows p i s.frame.pc s.frame.function.code.instructionCount c
    (s.counted 1)
  rw [advance_eq here, bind_apply] at failed
  cases ran : perform p i s.frame.pc s.frame.function.code.instructionCount
      (c.plug (s.counted 1)) with
  | ok transfer between =>
    rw [ran] at failed follows
    obtain ⟨core, rfl, -⟩ := follows
    obtain rfl | ⟨target, rfl⟩ := perform_stays p stays _ _ _ _ _ ran
    · cases failed
    · cases failed
  | error other between =>
    rw [ran] at failed follows
    cases failed
    obtain ⟨core, rfl, -⟩ := follows
    exact ⟨core, rfl⟩

/-- A fault by which an instruction may report a limit comes of that limit. -/
theorem struck_of_strikes {c : Core} {s : Surroundings} {i : Instruction}
    (here : s.frame.function.code.Has s.frame.pc i) (balanced : Holder.Balanced (c.plug s) [])
    {fault : Fault} {after : Machine} (failed : advance p (c.plug s) = .error fault after)
    (strikes : Strikes i fault) : Struck after fault := by
  have spared := advance_accounts p (c.plug s) balanced
  rw [failed] at spared
  rcases strikes with crowded | ⟨creates, requested, limit, oversized, rfl⟩
  · exact struck_of_crowded crowded spared.2 after
  · obtain ⟨core, rfl⟩ := exists_plug_of_failed here (by rw [creates]; rfl) failed
    exact .array (Core.frames_plug core (s.counted 1)) here creates oversized

/-- A step of the machine alone is the same if the limits are raised, unless it strikes one. -/
theorem advance_widens (within : low.Within high) {m : Machine} (keeps : m.KeepsTo low)
    (balanced : Holder.Balanced m []) :
    match advance p m with
    | .ok progress after =>
      after.KeepsTo low ∧ advance p (m.withLimits high) = .ok progress (after.withLimits high)
    | .error fault after =>
      Struck after fault ∨
        after.KeepsTo low ∧
          advance p (m.withLimits high) = .error fault (after.withLimits high) := by
  obtain ⟨c, s, rfl⟩ := exists_plug balanced.1
  let raised : Core :=
    { c with limits := high, stack := { c.stack with limit := high.stackSize } }
  have same (s : Surroundings) : (c.plug s).withLimits high = raised.plug s := rfl
  cases found : s.frame.function.code.recordAt? s.frame.pc with
  | none =>
    have spared := advance_accounts p (c.plug s) balanced
    have widens := (leave_composed (fun _ => id) none).widens within (c.plug s) keeps
    rw [same, advance_absent found, advance_absent found, ← same]
    rw [advance_absent found] at spared
    cases left : leave none (c.plug s) with
    | ok progress after =>
      rw [left] at widens
      exact widens
    | error fault after =>
      rw [left] at widens spared
      exact widens.imp_left fun crowded => struck_of_crowded crowded spared.2 after
  | some record =>
    cases decoded : Instruction.decode record s.frame.pc with
    | error problem =>
      rw [same, advance_unreadable found decoded, advance_unreadable found decoded]
      exact .inr ⟨keeps, rfl⟩
    | ok i =>
      have here : s.frame.function.code.Has s.frame.pc i := ⟨record, found, decoded⟩
      have widens := ((perform_widens within p i s.frame.pc
        s.frame.function.code.instructionCount).bind fun transfer =>
          (proceed_composed (fun _ => .inl) p s.frame.pc transfer).widens within)
        (c.plug (s.counted 1)) ⟨keeps.bounds, keeps.capacity⟩
      have plain := advance_eq (p := p) (c := c) here
      have lifted : advance p ((c.plug s).withLimits high) =
          (perform p i s.frame.pc s.frame.function.code.instructionCount >>=
            proceed p s.frame.pc) ((c.plug (s.counted 1)).withLimits high) :=
        advance_eq (c := raised) here
      rw [← plain, ← lifted] at widens
      cases ran : advance p (c.plug s) with
      | ok progress after =>
        rw [ran] at widens
        exact widens
      | error fault after =>
        rw [ran] at widens
        exact widens.imp_left (struck_of_strikes here balanced ran)

end Steps

end Machine

/-- The status of a machine with other limits. -/
def Status.withLimits {σ α : Type} (limits : Limits) : Status σ α → Status σ α
  | .running t m => .running t (m.withLimits limits)
  | .finished answer t m => .finished answer t (m.withLimits limits)
  | .faulted fault t m => .faulted fault t (m.withLimits limits)

/-- An execution has not come to a fault that comes of a limit. -/
def Status.Spared {σ α : Type} : Status σ α → Prop
  | .faulted fault _ after => ¬ after.Struck fault
  | _ => True

namespace Machine

open HotPath.Action

section Runs

variable {low high : Limits} {p : Program} {σ : Type} {profiler : Profiler σ}

/-- A step that is spared by the limits is the same if they are raised. -/
theorem step_withLimits (within : low.Within high) (t : σ) {m : Machine} (keeps : m.KeepsTo low)
    (balanced : Holder.Balanced m []) (spared : (step p profiler t m).Spared) :
    (step p profiler t m).machine.KeepsTo low ∧
      step p profiler t (m.withLimits high) = (step p profiler t m).withLimits high := by
  have widens := advance_widens (p := p) within keeps balanced
  rw [step_eq_conclude] at spared ⊢
  rw [step_eq_conclude]
  cases advanced : advance p m with
  | error fault after =>
    rw [advanced] at widens spared
    obtain ⟨kept, same⟩ := widens.resolve_left spared
    rw [same]
    exact ⟨kept, rfl⟩
  | ok progress after =>
    rw [advanced] at widens spared
    obtain ⟨kept, same⟩ := widens
    rw [same]
    cases progress with
    | running | finished value => exact ⟨kept, rfl⟩
    | calling index callee returnAddress =>
      have enters := enter_widens within index
        (profiler.version index callee (profiler.recordCall index callee t)) (some returnAddress)
        after kept
      simp only [conclude] at spared ⊢
      cases entered : enter index
          (profiler.version index callee (profiler.recordCall index callee t))
          (some returnAddress) after with
      | ok _ inside =>
        rw [entered] at enters
        obtain ⟨kept, same⟩ := enters
        rw [same]
        exact ⟨kept, rfl⟩
      | error fault outside =>
        rw [entered] at enters spared
        rcases enters with ⟨limit, rfl⟩ | ⟨kept, same⟩
        · exact absurd (.calls limit) spared
        · rw [same]
          exact ⟨kept, rfl⟩

/-- A run that is spared by the limits is the same if they are raised. -/
theorem run_withLimits (within : low.Within high) (fuel : Nat) (t : σ) {m : Machine}
    (keeps : m.KeepsTo low) (balanced : Holder.Balanced m [])
    (spared : (run p profiler fuel t m).Spared) :
    run p profiler fuel t (m.withLimits high) = (run p profiler fuel t m).withLimits high := by
  induction fuel generalizing t m with
  | zero => rfl
  | succ fuel ih =>
    have balance := step_keeps p profiler t balanced
    unfold run at spared ⊢
    cases stepped : step p profiler t m with
    | running u after =>
      rw [stepped] at spared balance
      obtain ⟨kept, same⟩ := step_withLimits within t keeps balanced (by rw [stepped]; trivial)
      rw [same, stepped]
      rw [stepped] at kept
      exact ih u kept balance spared
    | finished answer u after =>
      obtain ⟨-, same⟩ := step_withLimits within t keeps balanced (by rw [stepped]; trivial)
      rw [same, stepped]
      rfl
    | faulted fault u after =>
      rw [stepped] at spared
      obtain ⟨-, same⟩ := step_withLimits within t keeps balanced (by rw [stepped]; exact spared)
      rw [same, stepped]
      rfl

variable (p profiler) in
/-- Starting on an unwound machine is the same if the limits are raised, unless it strikes one. -/
theorem start_widens (within : low.Within high) (t : σ) (index : Nat) {values : List Value}
    {m : Machine} (keeps : m.KeepsTo low) (empty : m.stack.entries = #[])
    (balanced : m.heap.Balanced values) :
    match start p profiler t index values m with
    | .ok _ after =>
      after.KeepsTo low ∧
        start p profiler t index values (m.withLimits high) = .ok () (after.withLimits high)
    | .error fault after =>
      Struck after fault ∨
        start p profiler t index values (m.withLimits high) =
          .error fault (after.withLimits high) := by
  by_cases crowded : m.stack.limit < values.length
  · have given : m.heap.Balanced (values ++ []) := by rwa [List.append_nil]
    obtain ⟨after, released, -⟩ := forM_release given
    rw [start_crowded p profiler t index crowded, bind_of_ok released]
    exact .inl (.operands _)
  have room : m.stack.entries.size + values.length ≤ m.stack.limit := by
    rw [empty, Array.size_empty]
    omega
  have more : (m.withLimits high).stack.entries.size + values.length ≤
      (m.withLimits high).stack.limit :=
    Nat.le_trans room (keeps.capacity ▸ within.stackSize)
  cases found : p.functions[index]? with
  | none =>
    rw [start_of_missing room found, start_of_missing more found]
    exact .inr rfl
  | some f =>
    have enters := enter_widens within index (profiler.version index f t) none (m.loaded values)
      ⟨keeps.bounds, keeps.capacity⟩
    have same : (m.withLimits high).loaded values = (m.loaded values).withLimits high := rfl
    rw [start_of_room room found, start_of_room more found, same]
    cases entered : enter index (profiler.version index f t) none (m.loaded values) with
    | ok _ after =>
      rw [entered] at enters
      exact enters
    | error fault after =>
      rw [entered] at enters
      rcases enters with ⟨limit, rfl⟩ | ⟨-, same⟩
      · exact .inl (.calls limit)
      · exact .inr same

/-- A call that is spared by the limits goes through the same states if they are raised. -/
theorem underway_withLimits (within : low.Within high) (fuel index : Nat)
    (arguments : List HostValue) (t : σ) {m : Machine} (keeps : m.KeepsTo low)
    (balanced : m.heap.Balanced m.held)
    (spared : (underway p profiler fuel index arguments t m).Spared) :
    underway p profiler fuel index arguments t (m.withLimits high) =
      (underway p profiler fuel index arguments t m).withLimits high := by
  have imported := unwind_keeps (m := { m with heap := (m.heap.importAll arguments).2 })
    (balanced.importAll arguments)
  have balance := start_keeps p profiler t index imported rfl rfl
  have starts := start_widens p profiler within t index
    (m := unwind { m with heap := (m.heap.importAll arguments).2 })
    ⟨keeps.bounds, keeps.capacity⟩ rfl imported
  have raised : unwind { m.withLimits high with
      heap := ((m.withLimits high).heap.importAll arguments).2 } =
      (unwind { m with heap := (m.heap.importAll arguments).2 }).withLimits high := rfl
  unfold underway at spared ⊢
  dsimp only at spared ⊢
  rw [raised]
  cases started : start p profiler t index (m.heap.importAll arguments).1
      (unwind { m with heap := (m.heap.importAll arguments).2 }) with
  | error fault after =>
    rw [started] at starts spared
    have same := starts.resolve_left spared
    have heap : (m.withLimits high).heap = m.heap := rfl
    rw [heap, same]
    rfl
  | ok _ after =>
    rw [started] at starts spared balance
    obtain ⟨kept, same⟩ := starts
    have heap : (m.withLimits high).heap = m.heap := rfl
    rw [heap, same]
    exact run_withLimits within fuel t kept balance spared

/-- A call comes to a fault that comes of a limit. -/
def StrikesLimit (p : Program) (profiler : Profiler σ) (fuel : Nat) (name : String)
    (arguments : List HostValue) (t : σ) (m : Machine) : Prop :=
  ∃ index fault u after, entryOf p name arguments = .ok index ∧
    underway p profiler fuel index arguments t m = .faulted fault u after ∧ after.Struck fault

/-- A call that does not come to a limit is the same if the limits are raised. -/
theorem call_withLimits (within : low.Within high) (fuel : Nat) (name : String)
    (arguments : List HostValue) (t : σ) {m : Machine} (keeps : m.KeepsTo low)
    (balanced : m.heap.Balanced m.held)
    (spared : ¬ StrikesLimit p profiler fuel name arguments t m) :
    call p profiler fuel name arguments t (m.withLimits high) =
      (call p profiler fuel name arguments t m).withLimits high := by
  cases admitted : entryOf p name arguments with
  | error fault =>
    rw [call_of_refused p profiler admitted, call_of_refused p profiler admitted]
    rfl
  | ok index =>
    have clear : (underway p profiler fuel index arguments t m).Spared := by
      cases status : underway p profiler fuel index arguments t m with
      | running | finished => trivial
      | faulted fault u after =>
        exact fun struck => spared ⟨index, fault, u, after, admitted, status, struck⟩
    rw [call_eq_underway p profiler admitted, call_eq_underway p profiler admitted,
      underway_withLimits within fuel index arguments t keeps balanced clear]
    cases underway p profiler fuel index arguments t m with
    | running u after => rfl
    | faulted fault u after => rfl
    | finished answer u after =>
      cases answer with
      | none => rfl
      | some value =>
        simp only [Status.withLimits, onHeap]
        have heap : (after.withLimits high).heap = after.heap := rfl
        rw [heap]
        cases Heap.exportHost value after.heap <;> rfl

end Runs

/-- Raising the limits does not change a call on a new machine that stays within them. If the call
does not come to a fault for too many frames or operands, and no array is refused for being
longer than the limit, then with higher limits it ends in the same way and leaves the same
machine behind, apart from the limits: the outcome is the same, and so are the lines printed, the
instructions and frames counted, the heap with its statistics, and what the profiler was
told. -/
theorem raised_limits_unobservable {low high : Limits} (within : low.Within high) {σ : Type}
    (p : Program) (profiler : Profiler σ) (fuel : Nat) (name : String)
    (arguments : List HostValue) (t : σ)
    (spared : ¬ StrikesLimit p profiler fuel name arguments t (create low)) :
    let few := call p profiler fuel name arguments t (create low)
    let many := call p profiler fuel name arguments t (create high)
    many.outcome? = few.outcome? ∧ many.machine.output = few.machine.output ∧
      many.machine.counts = few.machine.counts ∧ many.machine.heap = few.machine.heap ∧
      many.machine.frames = few.machine.frames ∧
      many.machine.stack.entries = few.machine.stack.entries ∧ many.profile = few.profile := by
  have same : call p profiler fuel name arguments t (create high) =
      (call p profiler fuel name arguments t (create low)).withLimits high :=
    call_withLimits within fuel name arguments t ⟨rfl, rfl⟩ (Hosted.created low).balanced spared
  dsimp only
  rw [same]
  cases call p profiler fuel name arguments t (create low) <;>
    exact ⟨rfl, rfl, rfl, rfl, rfl, rfl, rfl⟩

/-- A program that asks another function for two zeros and answers with their number. -/
def nestedProgram : Program where
  intConstants := #[2]
  floatConstants := #[]
  functions := #[
    .make "main" [] .int 0
      (.ofList [.make .pushInt 0, .make .call 1, .make .arrayLength 0, .make .ret 0]),
    .make "zeros" [⟨"n", .int⟩] (.array .int) 1
      (.ofList [.make .loadLocal 0, .make .newArray 0, .make .ret 0])]
  entry := "main"

/-- The limits that the program just keeps within. -/
def tightLimits : Limits where
  callDepth := 2
  stackSize := 1
  arrayLength := 2

/-- The program does not come to any of its tight limits, and does the same with more room. -/
theorem raised_limits_unobservable_nestedProgram :
    tightLimits.Within {} ∧
      ¬ StrikesLimit nestedProgram Profiler.none 8 "main" [] () (create tightLimits) ∧
      (call nestedProgram Profiler.none 8 "main" [] () (create tightLimits)).outcome? =
        some (.ok (some (.int 2))) ∧
      (call nestedProgram Profiler.none 8 "main" [] () (create {})).outcome? =
        some (.ok (some (.int 2))) := by
  have within : tightLimits.Within {} := ⟨by decide, by decide, by decide⟩
  have admitted : entryOf nestedProgram "main" [] = .ok 0 := by decide +kernel
  have finished : (underway nestedProgram Profiler.none 8 0 [] () (create tightLimits)).outcome? =
      some (.ok (some (.int 2))) := by decide +kernel
  have ended : (call nestedProgram Profiler.none 8 "main" [] () (create tightLimits)).outcome? =
      some (.ok (some (.int 2))) := by decide +kernel
  have spared :
      ¬ StrikesLimit nestedProgram Profiler.none 8 "main" [] () (create tightLimits) := by
    rintro ⟨index, fault, u, after, found, faulted, -⟩
    rw [admitted] at found
    cases found
    rw [faulted] at finished
    cases finished
  obtain ⟨same, -⟩ := raised_limits_unobservable within nestedProgram Profiler.none 8 "main" [] ()
    spared
  exact ⟨within, spared, ended, same.trans ended⟩

end Machine

end HotPath
