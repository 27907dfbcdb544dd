import HotPath.Machine.Operation

/-!
# Steps and runs

A machine executes one instruction at a time. `advance` is that step as far as the
machine alone can take it; a call is where its surroundings have a say. They
are a `Profiler`: it is told of every call, and it may offer another version of the
function that is about to be entered. `step` puts the two together, and `run`
repeats it while its fuel lasts.

`execute` runs one function from an unwound machine. Whatever happens, a run that
ends with a fault ends with an unwound machine too.
-/

namespace HotPath

/-- What a machine tells its surroundings about calls, and asks of them. The surroundings have
a state of their own. -/
structure Profiler (σ : Type) where
  /-- A call to the function with this index is about to happen. -/
  recordCall : Nat → Function → σ → σ
  /-- The version to enter in place of the program's own function with this index. -/
  replacement? : Nat → σ → Option Function

namespace Profiler

variable {σ : Type}

/-- The profiler that takes no part. -/
def none : Profiler σ := ⟨fun _ _ state => state, fun _ _ => .none⟩

/-- The version of a function that is entered. -/
def version (profiler : Profiler σ) (index : Nat) (f : Function) (state : σ) : Function :=
  (profiler.replacement? index state).getD f

end Profiler

/-- What became of an execution: it goes on, it has ended with an answer, or it has faulted. -/
inductive Status (σ α : Type) where
  | running (profile : σ) (machine : Machine)
  | finished (answer : α) (profile : σ) (machine : Machine)
  | faulted (fault : Fault) (profile : σ) (machine : Machine)

namespace Status

variable {σ α : Type}

/-- The machine as it stands. -/
def machine : Status σ α → Machine
  | running _ m | finished _ _ m | faulted _ _ m => m

/-- The state of the surroundings as it stands. -/
def profile : Status σ α → σ
  | running s _ | finished _ s _ | faulted _ s _ => s

/-- How the execution ended, if it has. -/
def outcome? : Status σ α → Option (Except Fault α)
  | running .. => none
  | finished answer .. => some (.ok answer)
  | faulted fault .. => some (.error fault)

end Status

/-- What one instruction leads to. -/
inductive Progress where
  | running
  /-- A function is to be entered; its caller goes on at `returnAddress`. -/
  | calling (index : Nat) (callee : Function) (returnAddress : Nat)
  /-- The outermost frame has returned. -/
  | finished (value : Option Value)

namespace Machine

/-- Enter a function: the top operands become its first local slots, and the entries below them
are hidden from it. -/
def enter (index : Nat) (f : Function) (returnAddress : Option Nat) : Action Machine Unit :=
  fun m =>
    if m.limits.callDepth ≤ m.depth then .error (.callStackOverflow m.limits.callDepth) m
    else if m.stack.visible < f.arity then .error .stackUnderflow m
    else
      let base := m.stack.size - f.arity
      let arguments := m.stack.entries.extract base m.stack.size
      let frame := (Frame.make f index returnAddress base).withArguments arguments
      let depth := m.depth + 1
      .ok () { m with
        stack := { m.stack with entries := m.stack.entries.shrink base, base }
        calls := m.calls.push frame
        counts := { m.counts with
          calls := m.counts.calls + 1
          deepest := max m.counts.deepest depth } }

/-- Take the innermost frame off. -/
def popFrame : Action Machine Frame :=
  fun ⟨limits, heap, stack, calls, output, counts⟩ =>
    match calls.pop? with
    | some (frame, callers) => .ok frame ⟨limits, heap, stack, callers, output, counts⟩
    | none => .error .stackUnderflow ⟨limits, heap, stack, .empty, output, counts⟩

/-- Let the caller of a frame that has been taken off go on, and tell whether there is one. -/
def resumeCaller (frame : Frame) : Action Machine Bool :=
  fun ⟨limits, heap, stack, calls, output, counts⟩ =>
    match calls.pop? with
    | some (caller, callers) =>
      .ok true ⟨limits, heap, stack.setBase caller.base,
        callers.push { caller with pc := frame.returnAddress.getD caller.pc }, output, counts⟩
    | none => .ok false ⟨limits, heap, stack, .empty, output, counts⟩

/-- Let the caller of a frame that has been taken off go on with a value, or answer with the value
if there is no caller. -/
def handOver (frame : Frame) (value : Option Value) : Action Machine Progress := do
  if ← resumeCaller frame then
    if let some value := value then push value
    return .running
  else return .finished value

/-- Leave the innermost frame. All it holds is given back, the slots first and then its
operands; the value goes to the caller, or is the answer if there is no caller. -/
def leave (value : Option Value) : Action Machine Progress := do
  let frame ← popFrame
  let released ← Action.attempt <|
    Action.both (onHeap (Heap.releaseEach frame.locals.slots.toList))
      (onStack (OperandStack.truncate frame.base))
  match released with
  | .error fault =>
    if let some value := value then release value
    throw fault
  | .ok _ => handOver frame value

/-- Let control go where the instruction at `address` has sent it, up to the point where a call
enters its function. A frame that calls stays where it is: its callee knows where it goes on. -/
@[inline] def proceed (p : Program) (address : Nat) : Transfer → Action Machine Progress
  | .next => do
    goto (address + 1)
    return .running
  | .goto target => do
    goto target
    return .running
  | .leave value => leave value
  | .call index =>
    match p.functions[index]? with
    | some callee => return .calling index callee (address + 1)
    | none => throw (.invalidFunctionIndex index)

/-- Execute one instruction. Behind the last instruction there is an implicit return without a
value. -/
def advance [Numbering] (p : Program) : Action Machine Progress := do
  let (pc, code) ← top fun frame => (frame.pc, frame.function.code)
  match code.recordAt? pc with
  | none => leave none
  | some record =>
    match Instruction.decode record pc with
    | .error _ => throw (.invalidOpcode record.code pc)
    | .ok i =>
      countInstruction
      proceed p pc (← perform p i pc code.instructionCount)

section Runs

variable {σ : Type}

/-- Execute one instruction. A call is reported first, and then the version that the profiler
offers is entered. -/
def step [Numbering] (p : Program) (profiler : Profiler σ) (s : σ) (m : Machine) :
    Status σ (Option Value) :=
  match advance p m with
  | .ok .running m => .running s m
  | .ok (.finished value) m => .finished value s m
  | .ok (.calling index callee returnAddress) m =>
    let s := profiler.recordCall index callee s
    match enter index (profiler.version index callee s) (some returnAddress) m with
    | .ok _ m => .running s m
    | .error fault m => .faulted fault s m
  | .error fault m => .faulted fault s m

/-- Execute at most `fuel` instructions, implicit returns included. -/
def run [Numbering] (p : Program) (profiler : Profiler σ) :
    (fuel : Nat) → σ → Machine → Status σ (Option Value)
  | 0, s, m => .running s m
  | fuel + 1, s, m =>
    match step p profiler s m with
    | .running s m => run p profiler fuel s m
    | ended => ended

/-- Put the arguments on the empty stack and enter the first function. -/
def start (p : Program) (profiler : Profiler σ) (s : σ) (index : Nat) (arguments : List Value) :
    Action Machine Unit := do
  let limit ← Action.ofExcept fun m => .ok m.stack.limit
  if limit < arguments.length then
    arguments.forM release
    throw (.stackOverflow limit)
  arguments.forM fun value => onStack (Action.onLeft (OperandStack.push value))
  match p.functions[index]? with
  | some f => enter index (profiler.version index f s) none
  | none => throw (.invalidFunctionIndex index)

/-- Run a function on a machine, which is unwound first. The arguments hold a reference for
each array among them, and so does the answer. After a fault the machine is unwound again. -/
def execute [Numbering] (p : Program) (profiler : Profiler σ) (fuel : Nat) (index : Nat)
    (arguments : List Value) (s : σ) (m : Machine) : Status σ (Option Value) :=
  match start p profiler s index arguments m.unwind with
  | .error fault m => .faulted fault s m.unwind
  | .ok _ m =>
    match run p profiler fuel s m with
    | .faulted fault s m => .faulted fault s m.unwind
    | ended => ended

end Runs

end Machine

end HotPath
