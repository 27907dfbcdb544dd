import HotPath.Proofs.Code.Reading
import HotPath.Proofs.Machine.Exhaustion
import HotPath.Proofs.Machine.Framing

/-!
# One step with all its bounds

What one step can lead to, together with every bound that it keeps: `step_moves` lists it. Where
there is an instruction, `step_carries` says more: the address that control goes to lies within the
function, the slots stay as many, a function is entered only where there is room for its
frame, and one instruction is counted. Where there is none the frame is left and nothing is
counted (`step_at_end`), and where it cannot be read nothing happens (`step_unreadable`).
-/

namespace HotPath

open Relation

/-- Writing a slot leaves as many as there were. -/
theorem Locals.size_put (l : Locals) (index : Nat) (value : Value) :
    (l.put index value).size = l.size :=
  Array.size_setIfInBounds

/-- Nothing that happens to slots changes their number. -/
theorem Locals.Change.size_eq {l after : Locals} {h heap : Heap}
    (changed : Locals.Change (l, h) (after, heap)) : after.size = l.size := by
  cases changed with
  | heap => rfl
  | written => exact l.size_put _ _

/-- What is certain about a core after any number of effects, the number of slots included. -/
structure Core.Keeps (c after : Core) : Prop extends c.Follows after where
  slots : after.locals.size = c.locals.size

/-- A core that stays as it is keeps its slots. -/
theorem Core.Keeps.refl (c : Core) : c.Keeps c := ⟨.refl c, rfl⟩

namespace Machine

open HotPath.Action

section Slots

/-- How many slots the frames have, the innermost first. -/
def slotCounts (m : Machine) : List Nat := m.frames.map fun frame => frame.locals.size

/-- An effect leaves every frame with as many slots as it had. -/
theorem Effect.slotCounts_eq {m after : Machine} (effect : Effect m after) :
    after.slotCounts = m.slotCounts := by
  cases effect with
  | operands => rfl
  | printed => rfl
  | @slots frame callers locals heap running changed =>
    have frames : m.frames = frame :: callers.frames := congrArg CallStack.frames running
    have size := changed.size_eq
    simp only [slotCounts, Machine.frames, CallStack.frames_push, List.map_cons, size] at frames ⊢
    rw [frames, List.map_cons]

/-- Any number of effects leave every frame with as many slots as it had. -/
theorem slotCounts_of_effects {m after : Machine} (effects : ReflTransGen Effect m after) :
    after.slotCounts = m.slotCounts := by
  induction effects with
  | refl => rfl
  | tail _ effect ih => exact effect.slotCounts_eq.trans ih

/-- What an operation does to a machine keeps to the core and its slots. -/
theorem perform_keeps (p : Program) (i : Instruction) (address length : Nat) (c : Core)
    (s : Surroundings) :
    match perform p i address length (c.plug s) with
    | .ok _ m | .error _ m => ∃ after, m = after.plug s ∧ c.Keeps after := by
  have effects := perform_takes p i address length (c.plug s)
  obtain ⟨after, same, follows⟩ := follows_of_effects effects
  have counts := slotCounts_of_effects effects
  rw [same] at counts
  have keeps : c.Keeps after := ⟨follows, (List.cons.inj counts).1⟩
  unfold Action.after at same
  cases ran : perform p i address length (c.plug s) with
  | ok transfer m =>
    rw [ran] at same
    exact ⟨after, same, keeps⟩
  | error fault m =>
    rw [ran] at same
    exact ⟨after, same, keeps⟩

end Slots

section Targets

/-- Where the action sends control to an address, that lies within so many instructions or just
behind them. -/
def GoesWithin (length : Nat) (action : Action Machine Transfer) : Prop :=
  ∀ m target after, action m = .ok (.goto target) after → target ≤ length

/-- A jump leads into its function, or just behind it. -/
theorem jumpTarget_le {i : Instruction} {address length target : Nat}
    (leads : jumpTarget i address length = .ok target) : target ≤ length := by
  unfold jumpTarget at leads
  dsimp only at leads
  split at leads
  next bounds =>
    cases leads
    omega
  next => cases leads

/-- Going where a jump leads is going into the function. -/
theorem goto_within {length : Nat} {target : Except Fault Nat}
    (inside : ∀ address, target = .ok address → address ≤ length) :
    GoesWithin length (do return .goto (← settle target)) := by
  intro m address after ran
  cases target with
  | ok address =>
    cases ran
    exact inside address rfl
  | error fault => cases ran

/-- A jump leads into its function whether or not it is taken. -/
theorem jump_within (condition : Condition) {length : Nat} {target : Except Fault Nat}
    (inside : ∀ address, target = .ok address → address ≤ length) :
    GoesWithin length (jump condition target) := by
  cases condition with
  | always => exact goto_within inside
  | when expected =>
    intro m address after ran
    rw [jump, bind_apply] at ran
    cases popped : popBool m with
    | error fault between =>
      rw [popped] at ran
      cases ran
    | ok b between =>
      rw [popped] at ran
      dsimp only at ran
      split at ran
      next => exact goto_within inside between address after ran
      next => cases ran

/-- An instruction sends control to an address of its own function, or just behind it. -/
theorem perform_within (p : Program) (i : Instruction) (address length : Nat) :
    GoesWithin length (perform p i address length) := by
  by_cases jumps : i.opcode.isJump = true
  · obtain ⟨condition, opcode⟩ := exists_condition_of_isJump jumps
    rw [perform_jump p opcode]
    exact jump_within condition fun _ => jumpTarget_le
  · intro m target after ran
    exact absurd ran (perform_neverGoes p (Bool.not_eq_true _ ▸ jumps) address length m target after)

end Targets

section Steps

variable {σ : Type}

/-- A frame has been left: its caller goes on, or the execution has finished. -/
inductive Left (t : σ) (c : Core) (s : Surroundings) (value : Option Value) :
    Status σ (Option Value) → Prop where
  | resumed {caller : Frame} {callers : CallStack} (waiting : s.callers = callers.push caller)
    (heap : Heap) : Left t c s value (.running t (resumed c s heap caller callers value))
  | finished (alone : s.callers = .empty) (heap : Heap) :
    Left t c s value (.finished value t (vacated c s heap))

/-- What a frame leaves behind is what the step makes of it. -/
theorem Leaves.left {c : Core} {s : Surroundings} {value : Option Value}
    {result : EStateM.Result Fault Machine Progress} (leaves : Leaves c s value result)
    (profiler : Profiler σ) (t : σ) : Left t c s value (conclude profiler t result) := by
  cases leaves with
  | resumed waiting => exact .resumed waiting _
  | finished alone => exact .finished alone _

/-- Everything that carrying out an instruction can lead to. -/
inductive Carries (p : Program) (profiler : Profiler σ) (t : σ) (c : Core) (s : Surroundings)
    (i : Instruction) : Status σ (Option Value) → Prop where
  /-- Control stays in the function. -/
  | stayed {after : Core} (keeps : c.Keeps after) {address : Nat}
    (inside : address ≤ s.frame.function.instructionCount) :
    Carries p profiler t c s i (.running t (after.plug ((s.counted 1).goto address)))
  /-- The instruction faults. If this is a stack underflow, no operands are left. -/
  | failed {after : Core} (keeps : c.Keeps after) (fault : Fault)
    (want : fault = .stackUnderflow → after.stack.Exhausted) :
    Carries p profiler t c s i (.faulted fault t (after.plug (s.counted 1)))
  /-- A function is entered; there is room for its frame. -/
  | entered {callee : Function} (opcode : i.opcode = .call)
    (known : p.functions[i.index]? = some callee) {u : σ}
    (reported : u = profiler.recordCall i.index callee t) {version : Function}
    (enters : version = profiler.version i.index callee u)
    (room : (c.plug s).depth < c.limits.callDepth) {below arguments : Array Value}
    (entries : c.stack.entries = below ++ arguments) (visible : c.stack.base ≤ below.size)
    (count : arguments.size = version.arity) :
    Carries p profiler t c s i (.running u
      (entered i.index version (some (s.frame.pc + 1)) (c.plug (s.counted 1)) below arguments))
  /-- A function is not entered. If this is a stack underflow, there are too few arguments. -/
  | refused {callee : Function} (opcode : i.opcode = .call)
    (known : p.functions[i.index]? = some callee) {u : σ}
    (reported : u = profiler.recordCall i.index callee t) (fault : Fault)
    (want : fault = .stackUnderflow →
      c.stack.visible < (profiler.version i.index callee u).arity) :
    Carries p profiler t c s i (.faulted fault u (c.plug (s.counted 1)))
  /-- The frame is left. -/
  | left {value : Option Value} {entries : Array Value}
    (departs : Departs s.frame c.stack value entries) {status : Status σ (Option Value)}
    (left : Left t c (s.counted 1) value status) : Carries p profiler t c s i status

variable {p : Program} {profiler : Profiler σ} {c : Core} {s : Surroundings} {i : Instruction}
  {ground : Nat}

/-- An instruction that is neither a call nor a return. -/
theorem step_carries_of_stays (here : s.frame.function.code.Has s.frame.pc i)
    (stays : i.opcode.isTransfer = false) (t : σ) :
    Carries p profiler t c s i (step p profiler t (c.plug s)) := by
  have inside : s.frame.pc + 1 ≤ s.frame.function.instructionCount := Code.lt_of_has here
  have keeps := perform_keeps p i s.frame.pc s.frame.function.code.instructionCount c (s.counted 1)
  have within := perform_within p i s.frame.pc s.frame.function.code.instructionCount
    (c.plug (s.counted 1))
  have exhausts := perform_exhausts p i s.frame.pc s.frame.function.code.instructionCount
    (c.plug (s.counted 1))
  rw [step_eq_conclude, advance_eq here, bind_apply]
  cases ran : perform p i s.frame.pc s.frame.function.code.instructionCount
      (c.plug (s.counted 1)) with
  | ok transfer m =>
    rw [ran] at keeps
    obtain ⟨after, rfl, keeps⟩ := keeps
    obtain rfl | ⟨target, rfl⟩ := perform_stays p stays _ _ _ _ _ ran
    · exact .stayed keeps inside
    · exact .stayed keeps (within target _ ran)
  | error fault m =>
    rw [ran] at keeps
    obtain ⟨after, rfl, keeps⟩ := keeps
    refine .failed keeps fault fun underflow => ?_
    subst underflow
    exact exhausts _ ran (List.cons_ne_nil _ _)

/-- A call enters the callee, or fails with everything where it was. -/
theorem step_carries_of_call (here : s.frame.function.code.Has s.frame.pc i)
    (opcode : i.opcode = .call) (visible : c.stack.base ≤ c.stack.entries.size) (t : σ) :
    Carries p profiler t c s i (step p profiler t (c.plug s)) := by
  cases known : p.functions[i.index]? with
  | none =>
    rw [step_eq_conclude, advance_call_unknown here opcode known]
    exact .failed (.refl c) (.invalidFunctionIndex i.index) (fun other => by cases other)
  | some callee =>
    rw [step_eq_conclude, advance_call here opcode rfl known]
    simp only [conclude]
    by_cases deep : c.limits.callDepth ≤ (c.plug s).depth
    · rw [enter_deep (m := c.plug (s.counted 1)) deep]
      exact .refused opcode known rfl _ (fun other => by cases other)
    have room : (c.plug s).depth < c.limits.callDepth := Nat.lt_of_not_le deep
    by_cases few : c.stack.visible <
        (profiler.version i.index callee (profiler.recordCall i.index callee t)).arity
    · rw [enter_starved (m := c.plug (s.counted 1)) room few]
      exact .refused opcode known rfl _ fun _ => few
    · obtain ⟨below, arguments, entries, count, above⟩ :=
        c.stack.exists_arguments visible (Nat.le_of_not_lt few)
      rw [enter_eq (m := c.plug (s.counted 1)) room entries above count]
      exact .entered opcode known rfl rfl room entries above count

/-- An instruction does one of the things listed. -/
theorem step_carries (framed : Framed ground (c.plug s)) (balanced : Holder.Balanced (c.plug s) [])
    (here : s.frame.function.code.Has s.frame.pc i) (t : σ) :
    Carries p profiler t c s i (step p profiler t (c.plug s)) := by
  cases opcode : i.opcode with
  | call => exact step_carries_of_call here opcode framed.visible t
  | ret =>
    rw [step_eq_conclude]
    rcases c.stack.visible_cases with ⟨below, value, entries, visible⟩ | starved
    · have departs : Departs s.frame c.stack (some value) below :=
        .value here opcode entries visible
      have leaves := leave_cases_of_departs framed balanced.2 departs 1
      rw [advance_ret p here opcode entries visible]
      exact .left departs (leaves.left profiler t)
    · rw [advance_ret_starved p here opcode starved]
      exact .failed (.refl c) .stackUnderflow fun _ => starved
  | retVoid =>
    have departs : Departs s.frame c.stack none c.stack.entries := .void here opcode
    have leaves := leave_cases_of_departs framed balanced.2 departs 1
    rw [step_eq_conclude, advance_retVoid p here opcode]
    exact .left departs (leaves.left profiler t)
  | _ => exact step_carries_of_stays here (by rw [opcode]; rfl) t

/-- Behind the last instruction the frame is left, and nothing is counted. -/
theorem step_at_end (framed : Framed ground (c.plug s)) (balanced : Holder.Balanced (c.plug s) [])
    (absent : s.frame.function.code.recordAt? s.frame.pc = none) (t : σ) :
    Left t c s none (step p profiler t (c.plug s)) := by
  have leaves := leave_cases_of_departs framed balanced.2 (.ended absent) 0
  rw [step_eq_conclude, advance_absent absent]
  exact leaves.left profiler t

/-- An instruction that cannot be read is not counted, and nothing else changes either. -/
theorem step_unreadable {record : Record} {error : CodeError}
    (found : s.frame.function.code.recordAt? s.frame.pc = some record)
    (unreadable : Instruction.decode record s.frame.pc = .error error) (t : σ) :
    step p profiler t (c.plug s) =
      .faulted (.invalidOpcode record.code s.frame.pc) t (c.plug s) := by
  rw [step_eq_conclude, advance_unreadable found unreadable]
  rfl

/-- Everything that a step can lead to. -/
inductive Moves (p : Program) (profiler : Profiler σ) (t : σ) (c : Core) (s : Surroundings) :
    Status σ (Option Value) → Prop where
  /-- There is no further instruction. -/
  | ended (absent : s.frame.function.code.recordAt? s.frame.pc = none)
    {status : Status σ (Option Value)} (left : Left t c s none status) :
    Moves p profiler t c s status
  /-- The instruction cannot be read. -/
  | unreadable (code : UInt8) :
    Moves p profiler t c s (.faulted (.invalidOpcode code s.frame.pc) t (c.plug s))
  /-- The instruction is carried out. -/
  | carried {i : Instruction} (here : s.frame.function.code.Has s.frame.pc i)
    {status : Status σ (Option Value)} (carries : Carries p profiler t c s i status) :
    Moves p profiler t c s status

/-- A step does one of the things listed. -/
theorem step_moves (p : Program) (profiler : Profiler σ) (framed : Framed ground (c.plug s))
    (balanced : Holder.Balanced (c.plug s) []) (t : σ) :
    Moves p profiler t c s (step p profiler t (c.plug s)) := by
  cases found : s.frame.function.code.recordAt? s.frame.pc with
  | none => exact .ended found (step_at_end framed balanced found t)
  | some record =>
    cases decoded : Instruction.decode record s.frame.pc with
    | error problem =>
      rw [step_unreadable found decoded]
      exact .unreadable record.code
    | ok i =>
      have here : s.frame.function.code.Has s.frame.pc i := ⟨record, found, decoded⟩
      exact .carried here (step_carries framed balanced here t)

end Steps

end Machine

end HotPath
