import HotPath.Machine.Step

/-!
# Operations do not look at control

An operation works on the heap, the operands, the slots of the innermost frame and
the output. It sees neither which function is running, nor where it is, nor who
called it, nor what has been counted. A `Core` is the part that an operation sees
and `Surroundings` the rest; `Local` says that what an action does to the first
is the same whatever the second is, and that it takes no operand from below the base.
-/

namespace HotPath

/-- What an operation sees of a machine. -/
structure Core where
  limits : Limits
  heap : Heap
  stack : OperandStack
  locals : Locals
  output : Array String

/-- What an operation does not see of a machine. The slots of the frame are not its own. -/
structure Surroundings where
  frame : Frame
  callers : CallStack
  counts : ExecutionCounts

namespace Core

/-- The machine with this core in these surroundings. -/
def plug (c : Core) (s : Surroundings) : Machine :=
  ⟨c.limits, c.heap, c.stack, s.callers.push { s.frame with locals := c.locals }, c.output,
    s.counts⟩

/-- A result on a core, in these surroundings. -/
def plugResult {α : Type} (s : Surroundings) :
    EStateM.Result Fault Core α → EStateM.Result Fault Machine α
  | .ok answer c => .ok answer (c.plug s)
  | .error fault c => .error fault (c.plug s)

/-- The base of the operands is kept, and no operand below it is taken. -/
def Within {α : Type} (c : Core) : EStateM.Result Fault Core α → Prop
  | .ok _ after | .error _ after =>
    after.stack.base = c.stack.base ∧
      (c.stack.base ≤ c.stack.entries.size → c.stack.base ≤ after.stack.entries.size)

/-- A core that stays as it is has kept its base. -/
theorem within_refl (c : Core) : c.stack.base = c.stack.base ∧
    (c.stack.base ≤ c.stack.entries.size → c.stack.base ≤ c.stack.entries.size) :=
  ⟨rfl, id⟩

@[simp] theorem heap_plug (c : Core) (s : Surroundings) : (c.plug s).heap = c.heap := rfl

@[simp] theorem stack_plug (c : Core) (s : Surroundings) : (c.plug s).stack = c.stack := rfl

@[simp] theorem limits_plug (c : Core) (s : Surroundings) : (c.plug s).limits = c.limits := rfl

@[simp] theorem frames_plug (c : Core) (s : Surroundings) :
    (c.plug s).frames = { s.frame with locals := c.locals } :: s.callers.frames := rfl

end Core

namespace Machine

open HotPath.Action

/-- What the action does to a core is the same in all surroundings, which stay as they are. -/
def Local {α : Type} (action : Action Machine α) : Prop :=
  ∀ c, ∃ result, Core.Within c result ∧ ∀ s, action (Core.plug c s) = Core.plugResult s result

namespace Local

variable {α β : Type}

/-- Answering looks at nothing. -/
theorem pure (answer : α) : Local (Pure.pure answer) :=
  fun c => ⟨.ok answer c, c.within_refl, fun _ => rfl⟩

/-- Giving up looks at nothing. -/
theorem throw (fault : Fault) : Local (MonadExcept.throw fault : Action Machine α) :=
  fun c => ⟨.error fault c, c.within_refl, fun _ => rfl⟩

/-- A sequence is local if all of its actions are, and it keeps the base if all of them do. -/
theorem bind {action : Action Machine α} {rest : α → Action Machine β} (first : Local action)
    (second : ∀ answer, Local (rest answer)) : Local (action >>= rest) := by
  intro c
  obtain ⟨result, ⟨within, same⟩⟩ := first c
  cases result with
  | ok answer between =>
    obtain ⟨last, ⟨withinLast, later⟩⟩ := second answer between
    refine ⟨last, ?_, ?_⟩
    · obtain ⟨base, above⟩ := within
      cases last <;>
        exact ⟨withinLast.1.trans base, fun low => base ▸ withinLast.2 (base ▸ above low)⟩
    · intro s
      rw [bind_of_ok (same s), later s]
  | error fault between =>
    refine ⟨.error fault between, within, ?_⟩
    intro s
    rw [bind_of_error (same s)]
    rfl

/-- Holding a fault back is local. -/
theorem attempt {action : Action Machine α} (spec : Local action) :
    Local (Action.attempt action) := by
  intro c
  obtain ⟨result, within, same⟩ := spec c
  cases result with
  | ok answer after =>
    refine ⟨.ok (.ok answer) after, within, ?_⟩
    intro s
    simp only [Action.attempt, same s, Core.plugResult]
  | error fault after =>
    refine ⟨.ok (.error fault) after, within, ?_⟩
    intro s
    simp only [Action.attempt, same s, Core.plugResult]

/-- The limits are part of the core. -/
theorem ofLimits (read : Limits → Except Fault α) :
    Local (Action.ofExcept fun m => read m.limits) := by
  intro c
  cases found : read c.limits with
  | ok answer =>
    refine ⟨.ok answer c, c.within_refl, ?_⟩
    intro s
    simp only [Action.ofExcept, Core.limits_plug, found, Core.plugResult]
  | error fault =>
    refine ⟨.error fault c, c.within_refl, ?_⟩
    intro s
    simp only [Action.ofExcept, Core.limits_plug, found, Core.plugResult]

/-- What has been worked out before looks at nothing. -/
theorem settle (answer : Except Fault α) : Local (Action.settle answer) :=
  ofLimits fun _ => answer

/-- The heap is part of the core. -/
theorem onHeap (action : Action Heap α) : Local (Machine.onHeap action) := by
  intro c
  cases ran : action c.heap with
  | ok answer heap =>
    refine ⟨.ok answer { c with heap }, c.within_refl, ?_⟩
    intro s
    simp only [Machine.onHeap, Core.plug, ran, Core.plugResult]
  | error fault heap =>
    refine ⟨.error fault { c with heap }, c.within_refl, ?_⟩
    intro s
    simp only [Machine.onHeap, Core.plug, ran, Core.plugResult]

/-- An action on the operands that keeps to those of the present call. -/
def KeepsBase (action : Action (OperandStack × Heap) α) : Prop :=
  ∀ stack heap, (action.after (stack, heap)).1.base = stack.base ∧
    (stack.base ≤ stack.entries.size →
      stack.base ≤ (action.after (stack, heap)).1.entries.size)

/-- The operands are part of the core, and the base is kept if the action keeps it. -/
theorem onStack {action : Action (OperandStack × Heap) α} (keeps : KeepsBase action) :
    Local (Machine.onStack action) := by
  intro c
  have within := keeps c.stack c.heap
  unfold Action.after at within
  cases ran : action (c.stack, c.heap) with
  | ok answer after =>
    rw [ran] at within
    refine ⟨.ok answer { c with stack := after.1, heap := after.2 }, within, ?_⟩
    intro s
    simp only [Machine.onStack, Core.plug, ran, Core.plugResult]
  | error fault after =>
    rw [ran] at within
    refine ⟨.error fault { c with stack := after.1, heap := after.2 }, within, ?_⟩
    intro s
    simp only [Machine.onStack, Core.plug, ran, Core.plugResult]

/-- The slots are part of the core, whatever frame they are in. -/
theorem onLocals (action : Action (Locals × Heap) α) : Local (Machine.onLocals action) := by
  intro c
  cases ran : action (c.locals, c.heap) with
  | ok answer after =>
    refine ⟨.ok answer { c with locals := after.1, heap := after.2 }, c.within_refl, ?_⟩
    intro s
    simp only [Machine.onLocals, Core.plug, CallStack.pop?_push, ran, Core.plugResult]
  | error fault after =>
    refine ⟨.error fault { c with locals := after.1, heap := after.2 }, c.within_refl, ?_⟩
    intro s
    simp only [Machine.onLocals, Core.plug, CallStack.pop?_push, ran, Core.plugResult]

end Local

section Operands

open Local

/-- Whatever can be peeked at lies above the base. -/
theorem base_lt_of_peek {s : OperandStack} {value : Value} (found : s.peek = .ok value) :
    s.base < s.entries.size := by
  unfold OperandStack.peek at found
  split at found
  next => cases found
  next above => exact Nat.lt_of_not_le above

/-- A push keeps the base, with room and without. -/
theorem keepsBase_push (value : Value) : KeepsBase (OperandStack.pushOrRelease value) := by
  intro stack heap
  by_cases room : stack.entries.size < stack.limit
  · simp only [Action.after, OperandStack.pushOrRelease, OperandStack.push, room, if_true,
      Array.size_push, true_and]
    exact Nat.le_succ_of_le
  · simp only [Action.after, OperandStack.pushOrRelease, OperandStack.push, room, if_false]
    cases Heap.releaseValue value heap <;> exact ⟨rfl, id⟩

/-- A pop takes an operand from above the base, or none. -/
theorem keepsBase_pop : KeepsBase (onLeft OperandStack.pop) := by
  intro stack heap
  cases found : stack.peek with
  | ok value =>
    have above := base_lt_of_peek found
    simp only [Action.after, onLeft, OperandStack.pop, found, Array.size_pop, true_and]
    omega
  | error fault =>
    simp only [Action.after, onLeft, OperandStack.pop, found, true_and]
    exact id

/-- Looking at the top operand keeps the base. -/
theorem keepsBase_peek : KeepsBase (onLeft (Action.ofExcept OperandStack.peek)) := by
  intro stack heap
  cases found : stack.peek <;>
    simp only [Action.after, onLeft, Action.ofExcept, found, true_and] <;> exact id

/-- Dropping an operand takes it from above the base. -/
theorem keepsBase_drop : KeepsBase OperandStack.drop := by
  intro stack heap
  cases found : stack.peek with
  | ok value =>
    have above := base_lt_of_peek found
    cases released : Heap.releaseValue value heap <;>
      simp only [Action.after, OperandStack.drop, bind_apply, onLeft, OperandStack.pop, onRight,
        found, released, Array.size_pop, true_and] <;>
      omega
  | error fault =>
    simp only [Action.after, OperandStack.drop, bind_apply, onLeft, OperandStack.pop, found,
      true_and]
    exact id

/-- Doubling an operand keeps the base. -/
theorem keepsBase_dup : KeepsBase OperandStack.dup := by
  intro stack heap
  cases found : stack.peek with
  | ok value =>
    by_cases room : stack.entries.size < stack.limit
    · cases retained : Heap.retainValue value heap <;>
        simp only [Action.after, OperandStack.dup, bind_apply, onLeft, Action.ofExcept,
          OperandStack.push, onRight, found, room, retained, if_true, Array.size_push,
          true_and] <;>
        exact Nat.le_succ_of_le
    · simp only [Action.after, OperandStack.dup, bind_apply, onLeft, Action.ofExcept,
        OperandStack.push, found, room, if_false, true_and]
      exact id
  | error fault =>
    simp only [Action.after, OperandStack.dup, bind_apply, onLeft, Action.ofExcept, found,
      true_and]
    exact id

end Operands

section Operations

/-- A push does not look at control. -/
theorem push_local (value : Value) : Local (push value) := .onStack (keepsBase_push value)

/-- A pop does not look at control. -/
theorem pop_local : Local pop := .onStack keepsBase_pop

/-- Looking at the top operand does not look at control. -/
theorem peek_local : Local peek := .onStack keepsBase_peek

/-- Giving a value back does not look at control. -/
theorem release_local (value : Value) : Local (release value) := .onHeap _

/-- The output is part of the core. -/
theorem printLine_local (line : String) : Local (printLine line) :=
  fun c => ⟨.ok () { c with output := c.output.push line }, c.within_refl, fun _ => rfl⟩

/-- Popping a value of some shape does not look at control. -/
theorem popAs_local {α : Type} (expected : Shape) (read? : Value → Option α) :
    Local (popAs expected read?) := by
  refine pop_local.bind fun value => ?_
  cases read? value with
  | some inner => exact .pure inner
  | none => exact (release_local value).bind fun _ => .throw _

/-- Popping an integer does not look at control. -/
theorem popInt_local : Local popInt := popAs_local _ _

/-- Popping a float does not look at control. -/
theorem popFloat_local : Local popFloat := popAs_local _ _

/-- Popping a boolean does not look at control. -/
theorem popBool_local : Local popBool := popAs_local _ _

/-- Popping an array does not look at control. -/
theorem popArray_local : Local popArray := popAs_local _ _

/-- Checking a divisor does not look at control. -/
theorem requireDivisor_local (isZero : Value → Bool) : Local (requireDivisor isZero) := by
  refine peek_local.bind fun divisor => ?_
  split
  next => exact .throw _
  next => exact .pure _

/-- An operation on integers does not look at control. -/
theorem intBinary_local (result : Int64 → Int64 → Value) : Local (intBinary result) :=
  popInt_local.bind fun b => popInt_local.bind fun a => push_local (result a b)

/-- An operation on floats does not look at control. -/
theorem floatBinary_local (result : Double → Double → Value) : Local (floatBinary result) :=
  popFloat_local.bind fun b => popFloat_local.bind fun a => push_local (result a b)

/-- Pushing a constant does not look at control, as the table is the program's. -/
theorem pushConstant_local {α : Type} (table : Array α) (index : Nat) (value : α → Value) :
    Local (pushConstant table index value) := by
  unfold pushConstant
  split
  next constant _ => exact push_local _
  next => exact .throw _

/-- Printing does not look at control. -/
theorem print_local : Local print := by
  refine pop_local.bind fun value => ?_
  refine (Local.onHeap (Heap.textOf value)).attempt.bind fun line => ?_
  refine (release_local value).bind fun _ => ?_
  exact (Local.settle line).bind fun text => printLine_local text

/-- Stepping a slot does not look at control. -/
theorem addToLocal_local (index : Nat) (amount : Int64) : Local (addToLocal index amount) :=
  (Local.onLocals _).bind fun _ => .onLocals _

/-- Making an array looks at the limit on its length, which is part of the core. -/
theorem newArray_local (tag : Nat) : Local (newArray tag) := by
  unfold newArray
  split
  next => exact .throw _
  next type _ =>
    refine popInt_local.bind fun requested => ?_
    refine (Local.ofLimits fun limits => arrayLength limits.arrayLength requested).bind
      fun length => ?_
    exact (Local.onHeap _).bind fun id => push_local (.array id)

/-- Loading an element does not look at control. -/
theorem arrayLoad_local : Local arrayLoad := by
  refine popInt_local.bind fun index => popArray_local.bind fun id => ?_
  refine (Local.onHeap (Heap.load id index)).attempt.bind fun element => ?_
  refine (release_local (.array id)).bind fun _ => ?_
  exact (Local.settle element).bind fun value => push_local value

/-- Storing an element does not look at control. -/
theorem storeElement_local (value : Value) : Local (storeElement value) := by
  refine popInt_local.bind fun index => popArray_local.bind fun id => ?_
  refine (Local.onHeap (Heap.store id index value)).attempt.bind fun stored => ?_
  exact (release_local (.array id)).bind fun _ => .settle stored

/-- A store that gives the value back when it fails does not look at control. -/
theorem arrayStore_local : Local arrayStore := by
  refine pop_local.bind fun value => ?_
  refine (storeElement_local value).attempt.bind fun stored => ?_
  cases stored with
  | ok _ => exact .pure _
  | error fault => exact (release_local value).bind fun _ => .throw fault

/-- Asking for a length does not look at control. -/
theorem pushLength_local : Local pushLength := by
  refine popArray_local.bind fun id => ?_
  refine (Local.onHeap (Heap.length id)).attempt.bind fun length => ?_
  refine (release_local (.array id)).bind fun _ => ?_
  exact (Local.settle length).bind fun count => push_local _

/-- An operation after which control goes to the instruction that follows. -/
theorem next_local {operation : Action Machine Unit} (spec : Local operation) :
    Local (do operation; return Transfer.next) :=
  spec.bind fun _ => .pure _

/-- A jump pops its condition and does not look at control: where it leads has been worked out
before. -/
theorem jump_local (condition : Condition) (target : Except Fault Nat) :
    Local (jump condition target) := by
  have taken : Local (do return Transfer.goto (← Action.settle target)) :=
    (Local.settle target).bind fun address => .pure _
  cases condition with
  | always => exact taken
  | when expected =>
    refine popBool_local.bind fun b => ?_
    split
    next => exact taken
    next => exact .pure _

/-- An operation does to the core what it does, whatever the surroundings are. -/
theorem perform_local (p : Program) (i : Instruction) (address length : Nat) :
    Local (perform p i address length) := by
  unfold perform
  cases i.opcode with
  | nop => exact .pure _
  | pop => exact next_local (.onStack keepsBase_drop)
  | dup => exact next_local (.onStack keepsBase_dup)
  | print => exact next_local print_local
  | pushInt => exact next_local (pushConstant_local _ _ _)
  | pushFloat => exact next_local (pushConstant_local _ _ _)
  | pushBool b => exact next_local (push_local _)
  | loadLocal => exact (Local.onLocals _).bind fun value => next_local (push_local value)
  | storeLocal => exact pop_local.bind fun value => next_local (.onLocals _)
  | stepLocal direction => exact next_local (addToLocal_local _ _)
  | intBinary operation =>
    dsimp only
    split
    next => exact (requireDivisor_local _).bind fun _ => next_local (intBinary_local _)
    next => exact next_local (intBinary_local _)
  | negInt => exact popInt_local.bind fun n => next_local (push_local _)
  | floatBinary operation =>
    dsimp only
    split
    next => exact (requireDivisor_local _).bind fun _ => next_local (floatBinary_local _)
    next => exact next_local (floatBinary_local _)
  | negFloat => exact popFloat_local.bind fun x => next_local (push_local _)
  | intToFloat => exact popInt_local.bind fun n => next_local (push_local _)
  | floatToInt => exact popFloat_local.bind fun x => next_local (push_local _)
  | not => exact popBool_local.bind fun b => next_local (push_local _)
  | compareInt comparison => exact next_local (intBinary_local _)
  | compareFloat comparison => exact next_local (floatBinary_local _)
  | jump condition => exact jump_local condition _
  | newArray => exact next_local (newArray_local _)
  | arrayLoad => exact next_local arrayLoad_local
  | arrayStore => exact next_local arrayStore_local
  | arrayLength => exact next_local pushLength_local
  | call => exact .pure _
  | ret => exact pop_local.bind fun value => .pure _
  | retVoid => exact .pure _

end Operations

section Straight

/-- An action never sends control to an address. -/
def NeverGoes (action : Action Machine Transfer) : Prop :=
  ∀ m target after, action m ≠ .ok (.goto target) after

/-- A sequence never goes anywhere if what follows its first action never does. -/
theorem NeverGoes.bind {α : Type} {action : Action Machine α} {rest : α → Action Machine Transfer}
    (never : ∀ answer, NeverGoes (rest answer)) : NeverGoes (action >>= rest) := by
  intro m target after ran
  rw [bind_apply] at ran
  cases first : action m with
  | ok answer between =>
    rw [first] at ran
    exact never answer between target after ran
  | error fault between =>
    rw [first] at ran
    cases ran

/-- Nothing goes to an address that does not say so. -/
theorem NeverGoes.pure {transfer : Transfer} (never : ∀ target, transfer ≠ .goto target) :
    NeverGoes (Pure.pure transfer) := by
  intro m target after ran
  cases ran
  exact never target rfl

/-- Going on to the next instruction is no jump. -/
theorem neverGoes_next {operation : Action Machine Unit} :
    NeverGoes (do operation; return Transfer.next) :=
  .bind fun _ => .pure fun _ => Transfer.noConfusion

variable (p : Program) {i : Instruction} (straight : i.opcode.isJump = false)

include straight

/-- Every instruction except a jump does the same wherever it stands. -/
theorem perform_eq_of_straight (address length other otherLength : Nat) :
    perform p i address length = perform p i other otherLength := by
  unfold perform
  cases opcode : i.opcode with
  | jump condition =>
    rw [opcode] at straight
    cases straight
  | _ => rfl

/-- Only a jump sends control to an address. -/
theorem perform_neverGoes (address length : Nat) : NeverGoes (perform p i address length) := by
  unfold perform
  cases opcode : i.opcode with
  | jump condition =>
    rw [opcode] at straight
    cases straight
  | nop | call | retVoid => exact .pure fun _ => Transfer.noConfusion
  | ret => exact .bind fun value => .pure fun _ => Transfer.noConfusion
  | loadLocal | storeLocal | negInt | negFloat | intToFloat | floatToInt | not =>
    exact .bind fun _ => neverGoes_next
  | intBinary operation | floatBinary operation =>
    dsimp only
    split
    next => exact .bind fun _ => neverGoes_next
    next => exact neverGoes_next
  | _ => exact neverGoes_next

end Straight

section Jumps

/-- A jump has a condition, if only the one that always holds. -/
theorem exists_condition_of_isJump {opcode : Opcode} (jumps : opcode.isJump = true) :
    ∃ condition, opcode = .jump condition := by
  cases opcode with
  | jump condition => exact ⟨condition, rfl⟩
  | _ => cases jumps

/-- A jump whose target is inside the function, or just behind it, leads there. -/
theorem jumpTarget_eq {i : Instruction} {address length target : Nat}
    (leads : i.target address = (target : Int)) (inside : target ≤ length) :
    jumpTarget i address length = .ok target := by
  have bounds : 0 ≤ (target : Int) ∧ (target : Int) ≤ length := by omega
  simp only [jumpTarget, leads, bounds, and_self, if_true, Int.toNat_natCast]

/-- The operation of a jump is the jump to its target. -/
theorem perform_jump (p : Program) {i : Instruction} {condition : Condition}
    (opcode : i.opcode = .jump condition) (address length : Nat) :
    perform p i address length = jump condition (jumpTarget i address length) := by
  rw [perform, opcode]

/-- Whether a jump is taken. -/
def takes (condition : Condition) : Action Machine Bool :=
  match condition with
  | .always => return true
  | .when expected => return (← popBool) = expected

/-- Whether a jump is taken is up to the core. -/
theorem takes_local (condition : Condition) : Local (takes condition) := by
  cases condition with
  | always => exact .pure _
  | when expected => exact popBool_local.bind fun b => .pure _

/-- A jump with a target inside its function is taken or not. -/
theorem jump_eq (condition : Condition) (target : Nat) :
    jump condition (.ok target) = do
      return if ← takes condition then Transfer.goto target else Transfer.next := by
  cases condition with
  | always => rfl
  | when expected =>
    funext m
    simp only [jump, takes, bind_apply]
    cases popBool m with
    | error fault after => rfl
    | ok b after =>
      by_cases taken : b = expected
      · simp only [taken, if_true]
        rfl
      · simp [taken]

end Jumps

end Machine

end HotPath
