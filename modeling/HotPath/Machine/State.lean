import HotPath.Machine.CallStack
import HotPath.Store.Operands

/-!
# The state of a machine

A `Machine` is everything that an execution works on: the heap, the operand
stack, the calls in progress, the lines printed so far, and counters.

`held` lists every value that the machine holds. `unwind` gives all of them back and
leaves a machine without frames and operands.
-/

namespace HotPath

/-- The bounds that a machine keeps within. -/
structure Limits where
  /-- The most calls that may be in progress at once. -/
  callDepth : Nat := 1024
  /-- The most entries on the operand stack. -/
  stackSize : Nat := 65536
  /-- The most elements of an array that the program creates. -/
  arrayLength : Nat := 0x1000000
deriving DecidableEq, Repr, Inhabited

/-- What has been executed so far. -/
structure ExecutionCounts where
  instructions : Nat := 0
  /-- The frames that were entered. -/
  calls : Nat := 0
  /-- The most frames that were ever active at once. -/
  deepest : Nat := 0
deriving DecidableEq, Repr, Inhabited

/-- Everything that an execution works on. -/
structure Machine where
  limits : Limits
  heap : Heap
  stack : OperandStack
  calls : CallStack
  /-- The lines printed and not yet taken. -/
  output : Array String
  counts : ExecutionCounts
deriving DecidableEq, Repr, Inhabited

namespace Machine

/-- A machine that has not executed anything. -/
def create (limits : Limits) : Machine where
  limits
  heap := .empty
  stack := .empty limits.stackSize
  calls := .empty
  output := #[]
  counts := {}

/-- The frames of the calls in progress, the innermost first. -/
@[inline] def frames (m : Machine) : List Frame := m.calls.frames

/-- The number of calls in progress. -/
def depth (m : Machine) : Nat := m.calls.depth

theorem depth_eq_length (m : Machine) : m.depth = m.frames.length := m.calls.depth_eq

/-- Every value that the machine holds, in the order in which `unwind` gives them back: the
slots of each frame from the innermost outwards, then the operands from the top down. -/
def held (m : Machine) : List Value :=
  m.frames.flatMap (fun f => f.locals.slots.toList) ++ m.stack.above 0

/-- Give back every value that the machine holds and drop all frames and operands. A value
that cannot be given back does not stop the rest. -/
def unwind (m : Machine) : Machine :=
  { m with
    heap := (Heap.releaseEach m.held).after m.heap
    stack := { m.stack with entries := #[], base := 0 }
    calls := .empty }

/-- Take the printed lines away. -/
def takeOutput (m : Machine) : List String × Machine :=
  (m.output.toList, { m with output := #[] })

section Parts

variable {α : Type}

/-- Run an action on the heap. -/
@[inline] def onHeap (action : Action Heap α) : Action Machine α :=
  fun ⟨limits, heap, stack, calls, output, counts⟩ =>
    match action heap with
    | .ok answer heap => .ok answer ⟨limits, heap, stack, calls, output, counts⟩
    | .error fault heap => .error fault ⟨limits, heap, stack, calls, output, counts⟩

/-- Run an action on the operand stack and the heap. -/
@[inline] def onStack (action : Action (OperandStack × Heap) α) : Action Machine α :=
  fun ⟨limits, heap, stack, calls, output, counts⟩ =>
    match action (stack, heap) with
    | .ok answer (stack, heap) => .ok answer ⟨limits, heap, stack, calls, output, counts⟩
    | .error fault (stack, heap) => .error fault ⟨limits, heap, stack, calls, output, counts⟩

/-- Run an action on the slots of the innermost frame and the heap. -/
@[inline] def onLocals (action : Action (Locals × Heap) α) : Action Machine α :=
  fun ⟨limits, heap, stack, calls, output, counts⟩ =>
    match calls.pop? with
    | none => .error .stackUnderflow ⟨limits, heap, stack, .empty, output, counts⟩
    | some (⟨function, index, locals, pc, returnAddress, base⟩, callers) =>
      match action (locals, heap) with
      | .ok answer (locals, heap) =>
        .ok answer ⟨limits, heap, stack,
          callers.push ⟨function, index, locals, pc, returnAddress, base⟩, output, counts⟩
      | .error fault (locals, heap) =>
        .error fault ⟨limits, heap, stack,
          callers.push ⟨function, index, locals, pc, returnAddress, base⟩, output, counts⟩

end Parts

/-- Read something off the innermost frame. -/
@[inline] def top {α : Type} (read : Frame → α) : Action Machine α := fun m =>
  match m.frames with
  | frame :: _ => .ok (read frame) m
  | [] => .error .stackUnderflow m

/-- Let the innermost frame go on at an address. -/
@[inline] def goto (address : Nat) : Action Machine Unit :=
  fun ⟨limits, heap, stack, calls, output, counts⟩ =>
    match calls.pop? with
    | some (frame, callers) =>
      .ok () ⟨limits, heap, stack, callers.push { frame with pc := address }, output, counts⟩
    | none => .error .stackUnderflow ⟨limits, heap, stack, .empty, output, counts⟩

/-- Count an instruction. -/
@[inline] def countInstruction : Action Machine Unit :=
  fun ⟨limits, heap, stack, calls, output, ⟨instructions, entered, deepest⟩⟩ =>
    .ok () ⟨limits, heap, stack, calls, output, ⟨instructions + 1, entered, deepest⟩⟩

/-- Push a value, or give back what it holds if there is no room. -/
def push (value : Value) : Action Machine Unit := onStack (OperandStack.pushOrRelease value)

/-- Pop a value; what it holds passes to whoever pops it. -/
@[inline] def pop : Action Machine Value := onStack (Action.onLeft OperandStack.pop)

/-- The top operand, which stays where it is. -/
def peek : Action Machine Value := onStack (Action.onLeft (Action.ofExcept OperandStack.peek))

/-- Give back what a value holds. -/
def release (value : Value) : Action Machine Unit := onHeap (Heap.releaseValue value)

/-- Print a line. -/
def printLine (line : String) : Action Machine Unit := fun m =>
  .ok () { m with output := m.output.push line }

end Machine

end HotPath
