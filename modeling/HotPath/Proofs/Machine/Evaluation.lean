import HotPath.Proofs.Code.Decoding
import HotPath.Proofs.Machine.Locality

/-!
# Executing one instruction

What single instructions do to a core, when there is room for what they push and
what they pop is there. `advance_eq` gives the instruction that a frame stands
at, and `step_of_next` and its companions turn what it does into a step.
-/

namespace HotPath

/-- The frame stands at another address. -/
def Surroundings.goto (s : Surroundings) (address : Nat) : Surroundings :=
  { s with frame := { s.frame with pc := address } }

/-- A number of instructions have been counted. -/
def Surroundings.counted (s : Surroundings) (count : Nat) : Surroundings :=
  { s with counts := { s.counts with instructions := s.counts.instructions + count } }

/-- A number of instructions have been counted, and the frame stands behind them. -/
def Surroundings.passed (s : Surroundings) (count : Nat) : Surroundings :=
  (s.counted count).goto (s.frame.pc + count)

/-- Instructions that are passed one after the other are passed together. -/
theorem Surroundings.passed_passed (s : Surroundings) (first second : Nat) :
    (s.passed first).passed second = s.passed (first + second) := by
  simp only [passed, goto, counted, Nat.add_assoc]

/-- The core with other operands. -/
def Core.withEntries (c : Core) (entries : Array Value) : Core :=
  { c with stack := { c.stack with entries } }

/-- The operands that a call takes as its arguments, and those that stay behind. -/
theorem OperandStack.exists_arguments (s : OperandStack) (visible : s.base ≤ s.entries.size)
    {arity : Nat} (enough : arity ≤ s.visible) :
    ∃ below arguments, s.entries = below ++ arguments ∧ arguments.size = arity ∧
      s.base ≤ below.size := by
  have shown : s.visible = s.entries.size - s.base := by
    simp only [OperandStack.visible, OperandStack.size]
    omega
  refine ⟨s.entries.extract 0 (s.entries.size - arity),
    s.entries.extract (s.entries.size - arity) s.entries.size, ?_, ?_, ?_⟩
  · rw [Array.extract_append_extract, Nat.zero_min, Nat.max_eq_right (Nat.sub_le _ _),
      Array.extract_size]
  · rw [Array.size_extract]
    omega
  · rw [Array.size_extract]
    omega

namespace Machine

open HotPath.Action

section Operands

variable {c : Core}

/-- A push with room puts the value on top, and the heap does not change. -/
theorem push_plug {value : Value} (room : c.stack.entries.size < c.stack.limit)
    (s : Surroundings) :
    push value (c.plug s) =
      .ok () ((c.withEntries (c.stack.entries.push value)).plug s) := by
  simp only [push, onStack, Core.plug, Core.withEntries, OperandStack.pushOrRelease,
    OperandStack.push, room, if_true]

/-- A value that finds no room is given back. -/
theorem push_full {value : Value} {heap : Heap} (full : c.stack.limit ≤ c.stack.entries.size)
    (released : Heap.releaseValue value c.heap = .ok () heap) (s : Surroundings) :
    push value (c.plug s) =
      .error (.stackOverflow c.stack.limit) (Core.plug { c with heap } s) := by
  have noRoom : ¬ c.stack.entries.size < c.stack.limit := Nat.not_lt.mpr full
  simp only [push, onStack, Core.plug, OperandStack.pushOrRelease, OperandStack.push, noRoom,
    if_false, released]

/-- The top operand is seen if it is not below the base. -/
theorem peek_eq {stack : OperandStack} {below : Array Value} {value : Value}
    (entries : stack.entries = below.push value) (visible : stack.base ≤ below.size) :
    stack.peek = .ok value := by
  have above : ¬ stack.entries.size ≤ stack.base := by
    rw [entries, Array.size_push]
    omega
  rw [OperandStack.peek, if_neg above, entries, Array.back?_push]

/-- A pop takes the top operand, and the heap does not change. -/
theorem pop_plug {below : Array Value} {value : Value}
    (entries : c.stack.entries = below.push value) (visible : c.stack.base ≤ below.size)
    (s : Surroundings) :
    pop (c.plug s) = .ok value ((c.withEntries below).plug s) := by
  simp only [pop, onStack, Core.plug, Core.withEntries, onLeft, OperandStack.pop,
    peek_eq entries visible]
  rw [entries, Array.pop_push]

/-- Popping an operand of the right type. -/
theorem popAs_plug {α : Type} {expected : Shape} {read? : Value → Option α} {inner : α}
    {below : Array Value} {value : Value} (entries : c.stack.entries = below.push value)
    (visible : c.stack.base ≤ below.size) (read : read? value = some inner) (s : Surroundings) :
    popAs expected read? (c.plug s) =
      .ok inner ((c.withEntries below).plug s) := by
  rw [popAs, bind_of_ok (pop_plug entries visible s)]
  simp only [read, pure_apply]

/-- An integer on top of the operands is taken. -/
theorem popInt_plug {below : Array Value} {n : Int64}
    (entries : c.stack.entries = below.push (.int n)) (visible : c.stack.base ≤ below.size)
    (s : Surroundings) :
    popInt (c.plug s) = .ok n ((c.withEntries below).plug s) := by
  have read : Value.asInt? (.int n) = some n := rfl
  exact popAs_plug entries visible read s

/-- An operand of another type is given back. -/
theorem popAs_mismatch {α : Type} {read? : Value → Option α} {below : Array Value} {value : Value}
    {heap : Heap} (entries : c.stack.entries = below.push value)
    (visible : c.stack.base ≤ below.size) (read : read? value = none)
    (released : Heap.releaseValue value c.heap = .ok () heap) (expected : Shape)
    (s : Surroundings) :
    popAs expected read? (c.plug s) =
      .error (.invalidValueType expected value.shape)
        (({ c with heap }.withEntries below).plug s) := by
  have given : release value ((c.withEntries below).plug s) =
      .ok () (({ c with heap }.withEntries below).plug s) := by
    simp only [release, onHeap, Core.plug, Core.withEntries, released]
  rw [popAs, bind_of_ok (pop_plug entries visible s)]
  simp only [read]
  rw [bind_of_ok given, throw_apply]

/-- A value that is no integer is taken and given back, and its shape is reported. -/
theorem popInt_mismatch {below : Array Value} {value : Value} {heap : Heap}
    (entries : c.stack.entries = below.push value) (visible : c.stack.base ≤ below.size)
    (read : value.asInt? = none) (released : Heap.releaseValue value c.heap = .ok () heap)
    (s : Surroundings) :
    popInt (c.plug s) =
      .error (.invalidValueType (.declared .int) value.shape)
        (({ c with heap }.withEntries below).plug s) :=
  popAs_mismatch entries visible read released (.declared .int) s

end Operands

section Slots

variable {c : Core} {index : Nat} {value : Value}

/-- Copying a slot retains what it holds. -/
theorem load_plug {heap : Heap} (found : c.locals.slots[index]? = some value)
    (retained : Heap.retainValue value c.heap = .ok () heap) (s : Surroundings) :
    onLocals (Locals.load index) (c.plug s) = .ok value (Core.plug { c with heap } s) := by
  have read : Locals.load index (c.locals, c.heap) = .ok value (c.locals, heap) := by
    simp only [Locals.load, bind_apply, onLeft, Action.ofExcept, Locals.get, found, onRight,
      retained, pure_apply]
  simp only [onLocals, Core.plug, CallStack.pop?_push, read]

/-- Without a slot there is nothing to copy. -/
theorem load_missing (missing : c.locals.slots[index]? = none) (s : Surroundings) :
    onLocals (Locals.load index) (c.plug s) =
      .error (.invalidLocalIndex index c.locals.slots.size) (c.plug s) := by
  have read : Locals.load index (c.locals, c.heap) =
      .error (.invalidLocalIndex index c.locals.slots.size) (c.locals, c.heap) := by
    simp only [Locals.load, bind_apply, onLeft, Action.ofExcept, Locals.get, missing]
    rfl
  simp only [onLocals, Core.plug, CallStack.pop?_push, read]

/-- Moving a value into a slot releases what the slot held. -/
theorem store_plug {previous : Value} {heap : Heap}
    (found : c.locals.slots[index]? = some previous)
    (released : Heap.releaseValue previous c.heap = .ok () heap) (s : Surroundings) :
    onLocals (Locals.store index value) (c.plug s) =
      .ok () (Core.plug { c with heap, locals := c.locals.put index value } s) := by
  have stored : Locals.store index value (c.locals, c.heap) =
      .ok () (c.locals.put index value, heap) := by
    simp only [Locals.store, found, onRight, released]
  simp only [onLocals, Core.plug, CallStack.pop?_push, stored]

/-- Adding to the integer in a slot. -/
theorem addToLocal_plug {n : Int64} (found : c.locals.slots[index]? = some (.int n))
    (amount : Int64) (s : Surroundings) :
    addToLocal index amount (c.plug s) =
      .ok () (Core.plug { c with locals := c.locals.put index (.int (n + amount)) } s) := by
  have read : c.locals.getInt index = .ok n := by
    simp only [Locals.getInt, Locals.get, found]
    rfl
  simp only [addToLocal, bind_apply, onLocals, Core.plug, CallStack.pop?_push, onLeft,
    Action.ofExcept, read, Locals.setInt]

/-- There is no integer in a slot. -/
theorem addToLocal_refused {fault : Fault} (refused : c.locals.getInt index = .error fault)
    (amount : Int64) (s : Surroundings) :
    addToLocal index amount (c.plug s) = .error fault (c.plug s) := by
  simp only [addToLocal, bind_apply, onLocals, Core.plug, CallStack.pop?_push, onLeft,
    Action.ofExcept, refused]

end Slots

section Instructions

variable {p : Program} {c : Core} {i : Instruction} {value : Value} {below : Array Value}
  {n a b : Int64} (s : Surroundings) (address length : Nat)

/-- Taking two integers and pushing what becomes of them. The result finds room where the
second one was. -/
theorem intBinary_plug (entries : c.stack.entries = (below.push (.int a)).push (.int b))
    (visible : c.stack.base ≤ below.size) (room : c.stack.entries.size ≤ c.stack.limit)
    (result : Int64 → Int64 → Value) :
    intBinary result (c.plug s) =
      .ok () ((c.withEntries (below.push (result a b))).plug s) := by
  rw [entries, Array.size_push, Array.size_push] at room
  have second := popInt_plug entries (by rw [Array.size_push]; omega) s
  have first := popInt_plug (c := c.withEntries (below.push (.int a))) rfl visible s
  have finds : below.size < c.stack.limit := by omega
  rw [intBinary, bind_of_ok second, bind_of_ok first]
  exact push_plug finds s

/-- The first operand is no integer; it is given back. -/
theorem intBinary_mismatch {heap : Heap}
    (entries : c.stack.entries = (below.push value).push (.int b))
    (visible : c.stack.base ≤ below.size) (read : value.asInt? = none)
    (released : Heap.releaseValue value c.heap = .ok () heap)
    (result : Int64 → Int64 → Value) :
    intBinary result (c.plug s) =
      .error (.invalidValueType (.declared .int) value.shape)
        (({ c with heap }.withEntries below).plug s) := by
  have second := popInt_plug entries (by rw [Array.size_push]; omega) s
  have first := popInt_mismatch (c := c.withEntries (below.push value)) rfl visible read released s
  rw [intBinary, bind_of_ok second, bind_of_error first]
  rfl

/-- Loading a slot pushes its value, with one more reference to it. -/
theorem perform_loadLocal {heap : Heap} (opcode : i.opcode = .loadLocal)
    (found : c.locals.slots[i.index]? = some value)
    (retained : Heap.retainValue value c.heap = .ok () heap)
    (room : c.stack.entries.size < c.stack.limit) :
    perform p i address length (c.plug s) = .ok .next
      (({ c with heap }.withEntries (c.stack.entries.push value)).plug s) := by
  rw [perform, opcode]
  dsimp only
  rw [bind_of_ok (load_plug found retained s), bind_of_ok (push_plug (c := { c with heap }) room s),
    pure_apply]

/-- Loading a slot that the function does not have changes nothing. -/
theorem perform_loadLocal_missing (opcode : i.opcode = .loadLocal)
    (missing : c.locals.slots[i.index]? = none) :
    perform p i address length (c.plug s) =
      .error (.invalidLocalIndex i.index c.locals.slots.size) (c.plug s) := by
  rw [perform, opcode]
  dsimp only
  rw [bind_of_error (load_missing missing s)]

/-- Loading a slot without room for an operand takes the new reference back. -/
theorem perform_loadLocal_full {heap : Heap} (opcode : i.opcode = .loadLocal)
    (found : c.locals.slots[i.index]? = some value)
    (retained : Heap.retainValue value c.heap = .ok () heap)
    (released : Heap.releaseValue value heap = .ok () c.heap)
    (full : c.stack.limit ≤ c.stack.entries.size) :
    perform p i address length (c.plug s) = .error (.stackOverflow c.stack.limit) (c.plug s) := by
  rw [perform, opcode]
  dsimp only
  rw [bind_of_ok (load_plug found retained s),
    bind_of_error (push_full (c := { c with heap }) full released s)]

/-- Storing takes the top operand into a slot, and gives back what was there. -/
theorem perform_storeLocal {heap : Heap} {previous : Value} (opcode : i.opcode = .storeLocal)
    (entries : c.stack.entries = below.push value) (visible : c.stack.base ≤ below.size)
    (found : c.locals.slots[i.index]? = some previous)
    (released : Heap.releaseValue previous c.heap = .ok () heap) :
    perform p i address length (c.plug s) = .ok .next
      (({ c with heap, locals := c.locals.put i.index value }.withEntries below).plug s) := by
  rw [perform, opcode]
  dsimp only
  rw [bind_of_ok (pop_plug entries visible s),
    bind_of_ok (store_plug (c := c.withEntries below) found released s), pure_apply]
  rfl

/-- Stepping a slot that holds an integer changes just that. -/
theorem perform_stepLocal {direction : Direction} (opcode : i.opcode = .stepLocal direction)
    (found : c.locals.slots[i.index]? = some (.int n)) :
    perform p i address length (c.plug s) = .ok .next
      (Core.plug { c with locals := c.locals.put i.index (.int (n + direction.amount)) } s) := by
  rw [perform, opcode]
  dsimp only
  rw [bind_of_ok (addToLocal_plug found direction.amount s), pure_apply]

/-- Stepping a slot that holds no integer changes nothing. -/
theorem perform_stepLocal_refused {direction : Direction} {fault : Fault}
    (opcode : i.opcode = .stepLocal direction)
    (refused : c.locals.getInt i.index = .error fault) :
    perform p i address length (c.plug s) = .error fault (c.plug s) := by
  rw [perform, opcode]
  dsimp only
  rw [bind_of_error (addToLocal_refused refused direction.amount s)]

/-- A constant that there is room for is pushed. -/
theorem perform_pushInt (opcode : i.opcode = .pushInt) (found : p.intConstants[i.index]? = some n)
    (room : c.stack.entries.size < c.stack.limit) :
    perform p i address length (c.plug s) = .ok .next
      ((c.withEntries (c.stack.entries.push (.int n))).plug s) := by
  rw [perform, opcode]
  simp only [pushConstant, found]
  rw [bind_of_ok (push_plug room s), pure_apply]

/-- A constant that there is no room for changes nothing. -/
theorem perform_pushInt_full (opcode : i.opcode = .pushInt)
    (found : p.intConstants[i.index]? = some n)
    (full : c.stack.limit ≤ c.stack.entries.size) :
    perform p i address length (c.plug s) = .error (.stackOverflow c.stack.limit) (c.plug s) := by
  have refused : push (.int n) (c.plug s) = .error (.stackOverflow c.stack.limit) (c.plug s) :=
    push_full full rfl s
  rw [perform, opcode]
  simp only [pushConstant, found]
  rw [bind_of_error refused]

/-- An operation that is no division takes two integers and pushes the result, for which they leave
room. -/
theorem perform_intBinary {operation : IntOperation} (opcode : i.opcode = .intBinary operation)
    (total : operation.isDivision = false)
    (entries : c.stack.entries = (below.push (.int a)).push (.int b))
    (visible : c.stack.base ≤ below.size) (room : c.stack.entries.size ≤ c.stack.limit) :
    perform p i address length (c.plug s) = .ok .next
      ((c.withEntries (below.push (.int (operation.apply a b)))).plug s) := by
  rw [perform, opcode]
  dsimp only
  rw [total, if_neg Bool.false_ne_true]
  rw [bind_of_ok (intBinary_plug s entries visible room _)]
  rfl

/-- An operation whose left operand is no integer has taken both when it faults. -/
theorem perform_intBinary_mismatch {heap : Heap} {operation : IntOperation}
    (opcode : i.opcode = .intBinary operation) (total : operation.isDivision = false)
    (entries : c.stack.entries = (below.push value).push (.int b))
    (visible : c.stack.base ≤ below.size) (read : value.asInt? = none)
    (released : Heap.releaseValue value c.heap = .ok () heap) :
    perform p i address length (c.plug s) =
      .error (.invalidValueType (.declared .int) value.shape)
        (({ c with heap }.withEntries below).plug s) := by
  rw [perform, opcode]
  dsimp only
  rw [total, if_neg Bool.false_ne_true]
  rw [bind_of_error (intBinary_mismatch s entries visible read released _)]

end Instructions

section Entering

variable {f : Function} {m : Machine}

/-- The first state of a call: the arguments are in the first slots, and `below` are the operands
of the callers. -/
def entered (index : Nat) (f : Function) (returnAddress : Option Nat) (m : Machine)
    (below arguments : Array Value) : Machine :=
  Core.plug
    { limits := m.limits
      heap := m.heap
      stack := ⟨below, below.size, m.stack.limit⟩
      locals := ⟨arguments ++ Array.replicate (f.localCount - arguments.size) .null⟩
      output := m.output }
    { frame := .make f index returnAddress below.size
      callers := m.calls
      counts := { m.counts with
        calls := m.counts.calls + 1
        deepest := max m.counts.deepest (m.depth + 1) } }

/-- At the deepest call that is allowed no other one is entered. -/
theorem enter_deep (deep : m.limits.callDepth ≤ m.depth) (index : Nat) (f : Function)
    (returnAddress : Option Nat) :
    enter index f returnAddress m = .error (.callStackOverflow m.limits.callDepth) m := by
  rw [enter, if_pos deep]

/-- A function with too few operands for its parameters is not entered. -/
theorem enter_starved (room : m.depth < m.limits.callDepth) (few : m.stack.visible < f.arity)
    (index : Nat) (returnAddress : Option Nat) :
    enter index f returnAddress m = .error .stackUnderflow m := by
  rw [enter, if_neg (Nat.not_le.mpr room), if_pos few]

/-- A function that is entered takes its arguments off the caller's operands. -/
theorem enter_eq (room : m.depth < m.limits.callDepth) {below arguments : Array Value}
    (entries : m.stack.entries = below ++ arguments) (visible : m.stack.base ≤ below.size)
    (count : arguments.size = f.arity) (index : Nat) (returnAddress : Option Nat) :
    enter index f returnAddress m = .ok () (entered index f returnAddress m below arguments) := by
  have size : m.stack.entries.size = below.size + arguments.size := by
    rw [entries, Array.size_append]
  have enough : ¬ m.stack.visible < f.arity := by
    simp only [OperandStack.visible, OperandStack.size]
    omega
  have base : m.stack.size - f.arity = below.size := by
    simp only [OperandStack.size]
    omega
  have taken : m.stack.entries.extract below.size m.stack.size = arguments := by
    rw [OperandStack.size, size, entries, Array.extract_append_right,
      Array.extract_size]
  have left : m.stack.entries.shrink below.size = below := by
    rw [Array.shrink_eq_take, entries, Array.take_eq_extract, Array.extract_append_left,
      Array.extract_size]
  rw [enter, if_neg (Nat.not_le.mpr room), if_neg enough]
  simp only [base, taken, left, entered, Core.plug, Frame.withArguments, Frame.make]

end Entering

section Steps

variable {p : Program} {c : Core} {s : Surroundings} {i : Instruction}

/-- The instruction that a frame stands at is counted and carried out. -/
theorem advance_eq (here : s.frame.function.code.Has s.frame.pc i) :
    advance p (c.plug s) =
      (perform p i s.frame.pc s.frame.function.code.instructionCount >>= proceed p s.frame.pc)
        (c.plug (s.counted 1)) := by
  obtain ⟨record, found, decodes⟩ := here
  have place : top (fun frame => (frame.pc, frame.function.code)) (c.plug s) =
      .ok (s.frame.pc, s.frame.function.code) (c.plug s) := rfl
  have counts : countInstruction (c.plug s) = .ok () (c.plug (s.counted 1)) := rfl
  rw [advance, bind_of_ok place]
  simp only [found, decodes]
  rw [bind_of_ok counts]

/-- Where there is no instruction the frame is left. -/
theorem advance_absent (absent : s.frame.function.code.recordAt? s.frame.pc = none) :
    advance p (c.plug s) = leave none (c.plug s) := by
  have place : top (fun frame => (frame.pc, frame.function.code)) (c.plug s) =
      .ok (s.frame.pc, s.frame.function.code) (c.plug s) := rfl
  rw [advance, bind_of_ok place]
  simp only [absent]

/-- Behind the last instruction the frame is left without a value. -/
theorem advance_outside (past : s.frame.function.code.instructionCount ≤ s.frame.pc) :
    advance p (c.plug s) = leave none (c.plug s) :=
  advance_absent (Code.recordAt?_eq_none past)

/-- An instruction that cannot be read changes nothing. -/
theorem advance_unreadable {record : Record} {error : CodeError}
    (here : s.frame.function.code.recordAt? s.frame.pc = some record)
    (unreadable : Instruction.decode record s.frame.pc = .error error) :
    advance p (c.plug s) = .error (.invalidOpcode record.code s.frame.pc) (c.plug s) := by
  have place : top (fun frame => (frame.pc, frame.function.code)) (c.plug s) =
      .ok (s.frame.pc, s.frame.function.code) (c.plug s) := rfl
  rw [advance, bind_of_ok place]
  simp only [here, unreadable]
  rfl

/-- A call says which function it is about to enter. -/
theorem advance_call {index : Nat} {f : Function} (here : s.frame.function.code.Has s.frame.pc i)
    (opcode : i.opcode = .call) (names : i.index = index) (found : p.functions[index]? = some f) :
    advance p (c.plug s) = .ok (.calling index f (s.frame.pc + 1)) (c.plug (s.counted 1)) := by
  have performed : perform p i s.frame.pc s.frame.function.code.instructionCount
      (c.plug (s.counted 1)) = .ok (.call index) (c.plug (s.counted 1)) := by
    rw [perform, opcode, ← names]
    rfl
  rw [advance_eq here, bind_of_ok performed]
  simp only [proceed, found, pure_apply]

/-- A call of a function that the program does not have is counted, and the frame stays at it. -/
theorem advance_call_unknown (here : s.frame.function.code.Has s.frame.pc i)
    (opcode : i.opcode = .call) (unknown : p.functions[i.index]? = none) :
    advance p (c.plug s) =
      .error (.invalidFunctionIndex i.index) (c.plug (s.counted 1)) := by
  have performed : perform p i s.frame.pc s.frame.function.code.instructionCount
      (c.plug (s.counted 1)) = .ok (.call i.index) (c.plug (s.counted 1)) := by
    rw [perform, opcode]
    rfl
  rw [advance_eq here, bind_of_ok performed]
  simp only [proceed, unknown, throw_apply]

/-- An execution that has not ended goes on. -/
theorem running_of_outcome?_eq_none {α : Type} {status : Status Unit α}
    (goes : status.outcome? = none) :
    status = .running () status.machine := by
  cases status with
  | running => rfl
  | finished | faulted => cases goes

/-- One step is a run with fuel for one. -/
theorem run_one {σ : Type} (profiler : Profiler σ) (t : σ) (m : Machine) :
    run p profiler 1 t m = step p profiler t m := by
  rw [run]
  cases step p profiler t m <;> rfl

variable {σ : Type} {profiler : Profiler σ} {t : σ}

/-- What a step makes of what the machine alone does: a call is reported and entered. -/
def conclude (profiler : Profiler σ) (t : σ) :
    EStateM.Result Fault Machine Progress → Status σ (Option Value)
  | .ok .running m => .running t m
  | .ok (.finished value) m => .finished value t m
  | .ok (.calling index callee returnAddress) m =>
    let u := profiler.recordCall index callee t
    match enter index (profiler.version index callee u) (some returnAddress) m with
    | .ok _ m => .running u m
    | .error fault m => .faulted fault u m
  | .error fault m => .faulted fault t m

/-- A step in two parts. -/
theorem step_eq_conclude [Numbering] (t : σ) (m : Machine) :
    step p profiler t m = conclude profiler t (advance p m) := by
  unfold step conclude
  rcases advance p m with ⟨_ | _ | _, after⟩ | ⟨fault, after⟩ <;> rfl

/-- An instruction after which the next one follows. -/
theorem step_of_next {after : Core} (here : s.frame.function.code.Has s.frame.pc i)
    (done : perform p i s.frame.pc s.frame.function.code.instructionCount (c.plug (s.counted 1)) =
      .ok .next (after.plug (s.counted 1))) :
    step p profiler t (c.plug s) = .running t (after.plug (s.passed 1)) := by
  rw [step, advance_eq here, bind_of_ok done]
  rfl

/-- An operation that faults ends the execution where it has come to. -/
theorem step_of_error {fault : Fault} {m : Machine}
    (here : s.frame.function.code.Has s.frame.pc i)
    (failed : perform p i s.frame.pc s.frame.function.code.instructionCount (c.plug (s.counted 1)) =
      .error fault m) :
    step p profiler t (c.plug s) = .faulted fault t m := by
  rw [step, advance_eq here, bind_of_error failed]

/-- A step that goes on is the first of a longer run. -/
theorem run_succ_of_running {u : σ} {m after : Machine} (fuel : Nat)
    (stepped : step p profiler t m = .running u after) :
    run p profiler (fuel + 1) t m = run p profiler fuel u after := by
  rw [run, stepped]

/-- A run that is still going goes on with more fuel. -/
theorem run_add_of_running {u : σ} {m after : Machine} {fuel : Nat}
    (ran : run p profiler fuel t m = .running u after) (more : Nat) :
    run p profiler (fuel + more) t m = run p profiler more u after := by
  induction fuel generalizing t m with
  | zero =>
    cases ran
    rw [Nat.zero_add]
  | succ fuel ih =>
    rw [Nat.succ_add]
    cases stepped : step p profiler t m with
    | running v between =>
      rw [run_succ_of_running fuel stepped] at ran
      rw [run_succ_of_running (fuel + more) stepped]
      exact ih ran
    | finished answer v between =>
      rw [run, stepped] at ran
      cases ran
    | faulted fault v between =>
      rw [run, stepped] at ran
      cases ran

/-- A run that has ended is not changed by more fuel. -/
theorem run_add_of_ended {m : Machine} {fuel : Nat} {outcome : Except Fault (Option Value)}
    (ended : (run p profiler fuel t m).outcome? = some outcome) (more : Nat) :
    run p profiler (fuel + more) t m = run p profiler fuel t m := by
  induction fuel generalizing t m with
  | zero => cases ended
  | succ fuel ih =>
    rw [Nat.succ_add]
    cases stepped : step p profiler t m with
    | running v between =>
      rw [run_succ_of_running fuel stepped] at ended
      rw [run_succ_of_running (fuel + more) stepped, run_succ_of_running fuel stepped]
      exact ih ended
    | finished answer v between => rw [run, run, stepped]
    | faulted fault v between => rw [run, run, stepped]

/-- A step that ends the execution leaves nothing for more fuel to do. -/
theorem run_succ_of_ended {m : Machine} {outcome : Except Fault (Option Value)}
    (ended : (step p profiler t m).outcome? = some outcome) (fuel : Nat) :
    run p profiler (fuel + 1) t m = step p profiler t m := by
  rw [← run_one] at ended ⊢
  rw [Nat.add_comm, run_add_of_ended ended]

end Steps

end Machine

end HotPath
