import HotPath.Proofs.Machine.Framing

/-!
# A call cannot take the operands of its caller

`Instruction.takes` lists the operands that an instruction takes, the top one first, by what it
accepts in each place. Where a call sees only some of them, and nothing that the instruction
would refuse, the instruction faults with a stack underflow, however many entries there are below
the base. The same goes for a call that finds too few arguments.
-/

namespace HotPath

/-- What an instruction accepts as its operands, the top one first. A divisor must not be zero, and
an array of an unknown type is refused before its length is looked at. -/
def Instruction.takes (i : Instruction) : List (Value → Bool) :=
  let any : Value → Bool := fun _ => true
  let int : Value → Bool := fun value => value.asInt?.isSome
  let float : Value → Bool := fun value => value.asFloat?.isSome
  let bool : Value → Bool := fun value => value.asBool?.isSome
  let array : Value → Bool := fun value => value.asArray?.isSome
  match i.opcode with
  | .pop | .dup | .print | .storeLocal | .ret => [any]
  | .intBinary operation =>
    [fun value => int value && !(operation.isDivision && Machine.isIntZero value), int]
  | .floatBinary operation =>
    [fun value => float value && !(operation.isDivision && Machine.isFloatZero value), float]
  | .negInt | .intToFloat => [int]
  | .negFloat | .floatToInt => [float]
  | .not | .jump (.when _) => [bool]
  | .compareInt _ => [int, int]
  | .compareFloat _ => [float, float]
  | .newArray => if (ElementType.ofTag? i.index).isSome then [int] else []
  | .arrayLoad => [int, array]
  | .arrayStore => [any, int, array]
  | .arrayLength => [array]
  | .nop | .pushInt | .pushFloat | .pushBool _ | .loadLocal | .stepLocal _ | .jump .always
  | .call | .retVoid => []

/-- There are too few operands, and those that are there are accepted. -/
inductive Starves : List (Value → Bool) → List Value → Prop where
  | missing (accepts : Value → Bool) (rest : List (Value → Bool)) : Starves (accepts :: rest) []
  | accepted {accepts : Value → Bool} {rest : List (Value → Bool)} {value : Value}
    {values : List Value} (accepted : accepts value = true) (starves : Starves rest values) :
    Starves (accepts :: rest) (value :: values)

/-- The operands that the present call sees, the top one first. -/
def OperandStack.own (s : OperandStack) : List Value := s.above s.base

namespace Machine

open HotPath.Action

/-- The action faults with a stack underflow when it finds too few of these operands. Nothing but
operands is gone then. -/
def Underflows {α : Type} (takes : List (Value → Bool)) (action : Action Machine α) : Prop :=
  ∀ (c : Core) (s : Surroundings), Starves takes c.stack.own →
    ∃ entries, action (c.plug s) = .error .stackUnderflow ((c.withEntries entries).plug s)

section Operands

variable {c : Core}

/-- A call sees no operand, or a top one and the others. -/
theorem own_cases (s : OperandStack) :
    (s.own = [] ∧ s.entries.size ≤ s.base) ∨
      ∃ (below : Array Value) (value : Value), s.entries = below.push value ∧
        s.base ≤ below.size ∧ s.own = value :: { s with entries := below }.own := by
  rcases s.visible_cases with ⟨below, value, entries, visible⟩ | starved
  · refine .inr ⟨below, value, entries, visible, ?_⟩
    simp only [OperandStack.own, OperandStack.above_eq, entries, Array.toList_push]
    rw [List.drop_append_of_le_length (by simpa using visible), List.reverse_append]
    rfl
  · refine .inl ⟨?_, starved⟩
    rw [OperandStack.own, OperandStack.above_eq, List.drop_eq_nil_of_le (by simpa using starved)]
    rfl

end Operands

section Rules

variable {α β : Type} {takes : List (Value → Bool)}

/-- An action that takes no operands cannot find too few. -/
theorem Underflows.of_nil (action : Action Machine α) : Underflows [] action := by
  intro c s starves
  cases starves

/-- What comes after a fault is not carried out. -/
theorem Underflows.bind {action : Action Machine α} (spec : Underflows takes action)
    (rest : α → Action Machine β) : Underflows takes (action >>= rest) := by
  intro c s starves
  obtain ⟨entries, failed⟩ := spec c s starves
  exact ⟨entries, bind_of_error failed rest⟩

/-- A pop underflows for want of its operand, or leaves the rest to underflow. -/
theorem pop_underflows (accepts : Value → Bool) {rest : Value → Action Machine β}
    (later : ∀ value, Underflows takes (rest value)) :
    Underflows (accepts :: takes) (pop >>= rest) := by
  intro c s starves
  rcases own_cases c.stack with ⟨nothing, starved⟩ | ⟨below, value, entries, visible, own⟩
  · exact ⟨c.stack.entries, bind_of_error (pop_starved starved s) rest⟩
  · rw [own] at starves
    cases starves with
    | accepted _ starves =>
      rw [bind_of_ok (pop_plug entries visible s)]
      exact later value (c.withEntries below) s starves

/-- Popping a value of some shape underflows for want of it, and an operand that is accepted is of
that shape. -/
theorem popAs_underflows {expected : Shape} {read? : Value → Option α}
    {accepts : Value → Bool} (reads : ∀ value, accepts value = true → (read? value).isSome = true)
    {rest : α → Action Machine β} (later : ∀ inner, Underflows takes (rest inner)) :
    Underflows (accepts :: takes) (popAs expected read? >>= rest) := by
  intro c s starves
  rcases own_cases c.stack with ⟨nothing, starved⟩ | ⟨below, value, entries, visible, own⟩
  · have failed : popAs expected read? (c.plug s) = .error .stackUnderflow (c.plug s) :=
      bind_of_error (pop_starved starved s) _
    exact ⟨c.stack.entries, bind_of_error failed rest⟩
  · rw [own] at starves
    cases starves with
    | accepted accepted starves =>
      obtain ⟨inner, read⟩ := Option.isSome_iff_exists.mp (reads value accepted)
      rw [bind_of_ok (popAs_plug entries visible read s)]
      exact later inner (c.withEntries below) s starves

/-- Looking at the top operand faults where the call has none. -/
theorem peek_starved {c : Core} (starved : c.stack.entries.size ≤ c.stack.base)
    (s : Surroundings) : peek (c.plug s) = .error .stackUnderflow (c.plug s) := by
  have refused : c.stack.peek = .error .stackUnderflow := by
    rw [OperandStack.peek, if_pos starved]
  simp only [peek, onStack, Core.plug, onLeft, Action.ofExcept, refused]

/-- A divisor that is accepted is not zero, so the operation goes on to take it. -/
theorem requireDivisor_underflows {isZero : Value → Bool} {accepts : Value → Bool}
    (nonzero : ∀ value, accepts value = true → isZero value = false)
    {rest : Action Machine β} (later : Underflows (accepts :: takes) rest) :
    Underflows (accepts :: takes) (requireDivisor isZero >>= fun _ => rest) := by
  intro c s starves
  rcases own_cases c.stack with ⟨nothing, starved⟩ | ⟨below, value, entries, visible, own⟩
  · have failed : requireDivisor isZero (c.plug s) = .error .stackUnderflow (c.plug s) :=
      bind_of_error (peek_starved starved s) _
    exact ⟨c.stack.entries, bind_of_error failed _⟩
  · have accepted : accepts value = true := by
      rw [own] at starves
      cases starves with
      | accepted accepted _ => exact accepted
    have seen : peek (c.plug s) = .ok value (c.plug s) := by
      simp only [peek, onStack, Core.plug, onLeft, Action.ofExcept, peek_eq entries visible]
    have passes : requireDivisor isZero (c.plug s) = .ok () (c.plug s) := by
      rw [requireDivisor, bind_of_ok seen, nonzero value accepted]
      rfl
    rw [bind_of_ok passes]
    exact later c s starves

end Rules

section Operations

/-- An action that needs an operand underflows where the call has none. -/
theorem onStack_underflows {action : Action (OperandStack × Heap) Unit}
    (refused : ∀ (stack : OperandStack) (h : Heap), stack.entries.size ≤ stack.base →
      action (stack, h) = .error .stackUnderflow (stack, h)) (accepts : Value → Bool) :
    Underflows [accepts] (onStack action) := by
  intro c s starves
  rcases own_cases c.stack with ⟨nothing, starved⟩ | ⟨below, value, entries, visible, own⟩
  · refine ⟨c.stack.entries, ?_⟩
    simp only [onStack, Core.plug, refused c.stack c.heap starved]
    rfl
  · rw [own] at starves
    cases starves with
    | accepted _ starves => cases starves

/-- Dropping an operand faults where the call has none. -/
theorem drop_starved (stack : OperandStack) (h : Heap) (starved : stack.entries.size ≤ stack.base) :
    OperandStack.drop (stack, h) = .error .stackUnderflow (stack, h) := by
  have refused : stack.peek = .error .stackUnderflow := by
    rw [OperandStack.peek, if_pos starved]
  simp only [OperandStack.drop, bind_apply, onLeft, OperandStack.pop, refused]

/-- Doubling an operand faults where the call has none. -/
theorem dup_starved (stack : OperandStack) (h : Heap) (starved : stack.entries.size ≤ stack.base) :
    OperandStack.dup (stack, h) = .error .stackUnderflow (stack, h) := by
  have refused : stack.peek = .error .stackUnderflow := by
    rw [OperandStack.peek, if_pos starved]
  simp only [OperandStack.dup, bind_apply, onLeft, Action.ofExcept, refused]

/-- The value that is to be stored is given back, and the fault stays the same. -/
theorem arrayStore_underflows {c : Core} (s : Surroundings)
    (balanced : c.heap.Balanced (c.plug s).held)
    (starves : Starves [fun _ => true, fun value => value.asInt?.isSome,
      fun value => value.asArray?.isSome] c.stack.own) :
    ∃ after, arrayStore (c.plug s) = .error .stackUnderflow after := by
  rcases own_cases c.stack with ⟨nothing, starved⟩ | ⟨below, value, entries, visible, own⟩
  · exact ⟨_, bind_of_error (pop_starved starved s) _⟩
  rw [own] at starves
  cases starves with
  | accepted _ starves =>
    have storing : Underflows [fun value => value.asInt?.isSome,
        fun value => value.asArray?.isSome] (storeElement value) :=
      popAs_underflows (fun _ => id) fun index => popAs_underflows (fun _ => id) fun id =>
        .of_nil _
    obtain ⟨left, failed⟩ := storing (c.withEntries below) s starves
    have balance : c.heap.Balanced (value :: ((c.withEntries below).plug s).held) := by
      refine balanced.of_count_eq fun id => ?_
      simp only [List.count_cons, count_held, frames, Core.plug, Core.withEntries, entries,
        Array.toList_push, List.count_append, List.count_nil]
      omega
    obtain ⟨heap, released, -⟩ := balance.releaseValue
    have held : attempt (storeElement value) ((c.withEntries below).plug s) =
        .ok (.error .stackUnderflow) ((c.withEntries left).plug s) := by
      rw [attempt, failed]
      rfl
    have given : release value ((c.withEntries left).plug s) =
        .ok () (({ c with heap }.withEntries left).plug s) := by
      simp only [release, onHeap, Core.plug, Core.withEntries, released]
    rw [arrayStore, bind_of_ok (pop_plug entries visible s), bind_of_ok held]
    exact ⟨_, bind_of_ok given _⟩

/-- Printing takes one operand, whatever it is. -/
theorem print_underflows (accepts : Value → Bool) : Underflows [accepts] print :=
  pop_underflows accepts fun _ => .of_nil _

/-- An operation on integers takes two of them. -/
theorem intBinary_underflows {accepts : Value → Bool}
    (reads : ∀ value, accepts value = true → value.asInt?.isSome = true)
    (result : Int64 → Int64 → Value) :
    Underflows [accepts, fun value => value.asInt?.isSome] (intBinary result) :=
  popAs_underflows reads fun _ => popAs_underflows (fun _ => id) fun _ => .of_nil _

/-- An operation on floats takes two of them. -/
theorem floatBinary_underflows {accepts : Value → Bool}
    (reads : ∀ value, accepts value = true → value.asFloat?.isSome = true)
    (result : Double → Double → Value) :
    Underflows [accepts, fun value => value.asFloat?.isSome] (floatBinary result) :=
  popAs_underflows reads fun _ => popAs_underflows (fun _ => id) fun _ => .of_nil _

/-- A jump with a condition takes a boolean. -/
theorem jump_underflows (expected : Bool) (target : Except Fault Nat) :
    Underflows [fun value => value.asBool?.isSome] (jump (.when expected) target) :=
  popAs_underflows (fun _ => id) fun _ => .of_nil _

/-- Making an array of a type that exists takes its length. -/
theorem newArray_underflows {tag : Nat} (known : (ElementType.ofTag? tag).isSome) :
    Underflows [fun value => value.asInt?.isSome] (newArray tag) := by
  obtain ⟨type, found⟩ := Option.isSome_iff_exists.mp known
  rw [newArray, found]
  exact popAs_underflows (fun _ => id) fun _ => .of_nil _

/-- Asking for a length takes an array. -/
theorem pushLength_underflows :
    Underflows [fun value => value.asArray?.isSome] pushLength :=
  popAs_underflows (fun _ => id) fun _ => .of_nil _

/-- Loading an element takes an index and an array. -/
theorem arrayLoad_underflows :
    Underflows [fun value => value.asInt?.isSome, fun value => value.asArray?.isSome] arrayLoad :=
  popAs_underflows (fun _ => id) fun _ => popAs_underflows (fun _ => id) fun _ => .of_nil _

/-- Every instruction but a store into an array takes the operands that are listed for it, and
underflows where they run out. -/
theorem perform_underflows_of_ne (p : Program) {i : Instruction} (other : i.opcode ≠ .arrayStore)
    (address length : Nat) : Underflows i.takes (perform p i address length) := by
  unfold perform Instruction.takes
  cases opcode : i.opcode with
  | arrayStore => exact absurd opcode other
  | nop | pushInt | pushFloat | pushBool | loadLocal | stepLocal | call | retVoid =>
    exact .of_nil _
  | pop => exact (onStack_underflows drop_starved _).bind _
  | dup => exact (onStack_underflows dup_starved _).bind _
  | print => exact (print_underflows _).bind _
  | storeLocal | ret => exact pop_underflows _ fun _ => .of_nil _
  | intBinary operation =>
    dsimp only
    split
    next division =>
      refine requireDivisor_underflows ?_ ((intBinary_underflows ?_ _).bind _) <;>
        intro value accepted <;> simp_all
    next division =>
      refine (intBinary_underflows ?_ _).bind _
      intro value accepted
      simp_all
  | floatBinary operation =>
    dsimp only
    split
    next division =>
      refine requireDivisor_underflows ?_ ((floatBinary_underflows ?_ _).bind _) <;>
        intro value accepted <;> simp_all
    next division =>
      refine (floatBinary_underflows ?_ _).bind _
      intro value accepted
      simp_all
  | negInt | negFloat | intToFloat | floatToInt | not =>
    exact popAs_underflows (fun _ => id) fun _ => .of_nil _
  | compareInt comparison => exact (intBinary_underflows (fun _ => id) _).bind _
  | compareFloat comparison => exact (floatBinary_underflows (fun _ => id) _).bind _
  | jump condition =>
    cases condition with
    | always => exact .of_nil _
    | when expected => exact jump_underflows expected _
  | newArray =>
    dsimp only
    split
    next known => exact (newArray_underflows known).bind _
    next => exact .of_nil _
  | arrayLoad => exact arrayLoad_underflows.bind _
  | arrayLength => exact pushLength_underflows.bind _

/-- An instruction that finds too few operands of its own faults with a stack underflow. -/
theorem perform_underflows (p : Program) (i : Instruction) (address length : Nat) {c : Core}
    (s : Surroundings) (balanced : c.heap.Balanced (c.plug s).held)
    (starves : Starves i.takes c.stack.own) :
    ∃ after, perform p i address length (c.plug s) = .error .stackUnderflow after := by
  by_cases storing : i.opcode = .arrayStore
  · have takes : i.takes = [fun _ => true, fun value => value.asInt?.isSome,
        fun value => value.asArray?.isSome] := by
      rw [Instruction.takes, storing]
    obtain ⟨after, failed⟩ := arrayStore_underflows s balanced (takes ▸ starves)
    refine ⟨after, ?_⟩
    rw [perform, storing]
    exact bind_of_error failed _
  · obtain ⟨entries, failed⟩ := perform_underflows_of_ne p storing address length c s starves
    exact ⟨_, failed⟩

end Operations

section Steps

variable {σ : Type} {p : Program} {profiler : Profiler σ} {c : Core} {s : Surroundings}

/-- A step at an instruction that starves faults with a stack underflow. -/
theorem step_underflows {i : Instruction} (here : s.frame.function.code.Has s.frame.pc i)
    (balanced : Holder.Balanced (c.plug s) []) (starves : Starves i.takes c.stack.own) (t : σ) :
    ∃ after, step p profiler t (c.plug s) = .faulted .stackUnderflow t after := by
  have balance : c.heap.Balanced (c.plug (s.counted 1)).held := balanced.2
  obtain ⟨after, failed⟩ := perform_underflows p i s.frame.pc
    s.frame.function.code.instructionCount (s.counted 1) balance starves
  exact ⟨after, step_of_error here failed⟩

/-- A call for which there are too few arguments faults with a stack underflow. -/
theorem step_call_underflows {i : Instruction} (here : s.frame.function.code.Has s.frame.pc i)
    (opcode : i.opcode = .call) {callee : Function} (known : p.functions[i.index]? = some callee)
    (room : (c.plug s).depth < c.limits.callDepth) (t : σ)
    (few : c.stack.visible <
      (profiler.version i.index callee (profiler.recordCall i.index callee t)).arity) :
    ∃ u after, step p profiler t (c.plug s) = .faulted .stackUnderflow u after := by
  let u := profiler.recordCall i.index callee t
  refine ⟨u, c.plug (s.counted 1), ?_⟩
  have starved : enter i.index (profiler.version i.index callee u) (some (s.frame.pc + 1))
      (c.plug (s.counted 1)) = .error .stackUnderflow (c.plug (s.counted 1)) :=
    enter_starved (m := c.plug (s.counted 1)) room few _ _
  rw [step, advance_call here opcode rfl known]
  dsimp only
  rw [starved]

end Steps

end Machine

end HotPath
