import HotPath.Machine.Operation
import HotPath.Proofs.Store.Conservation

/-!
# Operations conserve references

Every operation of the machine keeps the contract of `Action.Conserves`: what it
pops it gives back or passes on, on every way out. `perform_conserves` puts this
together for all instructions. The only reference that an instruction leaves in
hand is that of a value about to be returned.
-/

namespace HotPath

/-- A machine is ready for an operation when a call is in progress. -/
instance : Holder Machine := ⟨Machine.heap, Machine.held, fun m => m.frames ≠ []⟩

/-- What control carries along. -/
def Transfer.inHand : Transfer → List Value
  | .leave value => value.toList
  | _ => []

namespace Machine

open HotPath.Action Holder

/-- A machine holds what is in the slots of its frames and what is on the stack. -/
theorem count_held (m : Machine) (value : Value) :
    m.held.count value =
      (m.frames.flatMap fun f => f.locals.slots.toList).count value +
        m.stack.entries.toList.count value := by
  simp only [held, List.count_append, OperandStack.above_eq, List.drop_zero, List.count_reverse]

/-- A machine is balanced if a call is in progress and the heap counts what is in hand and what the
machine holds. -/
theorem balanced_iff {m : Machine} {inHand : List Value} :
    Holder.Balanced m inHand ↔ m.frames ≠ [] ∧ m.heap.Balanced (inHand ++ m.held) := Iff.rfl

section Parts

variable {α : Type} {taken : List Value} {given : α → List Value} {answers : α → Prop}

/-- What conserves references on the heap does in a machine, with all that the machine holds in
other hands meanwhile. -/
theorem onHeap_conserves {action : Action Heap α} (spec : Conserves taken action given answers) :
    Conserves taken (onHeap action) given answers := by
  rintro ⟨limits, h, stack, calls, output, counts⟩ others ⟨ready, balanced⟩
  -- What the machine holds does not depend on its heap.
  let rest := held ⟨limits, h, stack, calls, output, counts⟩
  have result := spec h (others ++ rest) <| by
    rw [balanced_heap_iff, ← List.append_assoc]
    exact balanced
  simp only [onHeap]
  cases ran : action h with
  | ok answer after =>
    rw [ran] at result
    obtain ⟨balance, holds⟩ := result
    rw [balanced_heap_iff, ← List.append_assoc] at balance
    exact ⟨⟨ready, balance⟩, holds⟩
  | error fault after =>
    rw [ran] at result
    obtain ⟨balance, spared⟩ := result
    exact ⟨⟨ready, balanced_heap_iff.mp balance⟩, spared⟩

/-- A fault can be held back before the action runs on the machine or after. -/
theorem attempt_onHeap (action : Action Heap α) :
    attempt (onHeap action) = onHeap (attempt action) := by
  funext ⟨limits, h, stack, calls, output, counts⟩
  simp only [attempt, onHeap]
  cases action h <;> rfl

/-- A fault on the heap that is held back is held back in a machine. -/
theorem attempt_onHeap_conserves {action : Action Heap α} {given : Except Fault α → List Value}
    {answers : Except Fault α → Prop} (spec : Conserves taken (attempt action) given answers) :
    Conserves taken (attempt (onHeap action)) given answers := by
  rw [attempt_onHeap]
  exact onHeap_conserves spec

/-- What conserves references on the operands does in a machine, with the slots in other hands. -/
theorem onStack_conserves {action : Action (OperandStack × Heap) α}
    (spec : Conserves taken action given answers) :
    Conserves taken (onStack action) given answers := by
  rintro ⟨limits, h, stack, calls, output, counts⟩ others ⟨ready, balanced⟩
  let slots := calls.frames.flatMap fun f => f.locals.slots.toList
  -- The slots of the frames are in the hand of whoever works on the operands.
  have moved (stack : OperandStack) (h : Heap) (inHand : List Value) :
      h.Balanced (inHand ++ slots ++ stack.entries.toList) ↔
        h.Balanced (inHand ++ held ⟨limits, h, stack, calls, output, counts⟩) := by
    constructor <;> intro balanced <;> refine balanced.of_count_eq fun id => ?_ <;>
      simp only [List.count_append, count_held, frames, slots] <;> omega
  have result := spec (stack, h) (others ++ slots) <| by
    rw [balanced_operands_iff, ← List.append_assoc]
    exact (moved stack h _).mpr balanced
  simp only [onStack]
  cases ran : action (stack, h) with
  | ok answer after =>
    rw [ran] at result
    obtain ⟨balance, holds⟩ := result
    rw [balanced_operands_iff, ← List.append_assoc] at balance
    exact ⟨⟨ready, (moved _ _ _).mp balance⟩, holds⟩
  | error fault after =>
    rw [ran] at result
    obtain ⟨balance, spared⟩ := result
    exact ⟨⟨ready, (moved _ _ _).mp (balanced_operands_iff.mp balance)⟩, spared⟩

/-- What conserves references on the slots does in a machine, with the operands and the other
frames' slots in other hands. -/
theorem onLocals_conserves {action : Action (Locals × Heap) α}
    (spec : Conserves taken action given answers) :
    Conserves taken (onLocals action) given answers := by
  rintro ⟨limits, h, stack, calls, output, counts⟩ others ⟨ready, balanced⟩
  obtain rfl | ⟨frame, callers, rfl⟩ := calls.eq_empty_or_push
  · exact absurd rfl ready
  obtain ⟨function, index, locals, pc, returnAddress, base⟩ := frame
  let rest := (callers.frames.flatMap fun f => f.locals.slots.toList) ++ stack.entries.toList
  -- The callers' slots and the operands are in the hand of whoever works on these slots.
  have moved (locals : Locals) (h : Heap) (inHand : List Value) :
      h.Balanced (inHand ++ rest ++ locals.slots.toList) ↔
        h.Balanced (inHand ++ held ⟨limits, h, stack,
          callers.push ⟨function, index, locals, pc, returnAddress, base⟩, output, counts⟩) := by
    constructor <;> intro balanced <;> refine balanced.of_count_eq fun id => ?_ <;>
      simp only [List.count_append, count_held, frames, CallStack.frames_push, List.flatMap_cons,
        rest] <;> omega
  have result := spec (locals, h) (others ++ rest) <| by
    rw [balanced_locals_iff, ← List.append_assoc]
    exact (moved locals h _).mpr balanced
  simp only [onLocals, CallStack.pop?_push]
  cases ran : action (locals, h) with
  | ok answer after =>
    rw [ran] at result
    obtain ⟨balance, holds⟩ := result
    rw [balanced_locals_iff, ← List.append_assoc] at balance
    exact ⟨⟨List.cons_ne_nil _ _, (moved _ _ _).mp balance⟩, holds⟩
  | error fault after =>
    rw [ran] at result
    obtain ⟨balance, spared⟩ := result
    exact ⟨⟨List.cons_ne_nil _ _, (moved _ _ _).mp (balanced_locals_iff.mp balance)⟩, spared⟩

end Parts

section Operands

/-- A push takes a value out of hand, with room and without. -/
theorem push_conserves (value : Value) : Conserves [value] (push value) fun _ => [] :=
  onStack_conserves (OperandStack.pushOrRelease_conserves value)

/-- A value that is no reference comes from nowhere. -/
theorem push_conserves_of_not_reference {value : Value} (plain : value.isReference = false) :
    Conserves [] (push value) fun _ => [] :=
  (Conserves.cons_iff_of_not_reference plain).mp (push_conserves value)

/-- A pop puts in hand what the stack held. -/
theorem pop_conserves : Conserves [] pop fun value => [value] :=
  onStack_conserves OperandStack.pop_conserves

/-- Looking at the top operand leaves its reference to the stack. -/
theorem peek_conserves : Conserves [] peek fun _ => [] :=
  onStack_conserves OperandStack.peek_conserves

/-- Giving a value back takes it out of hand. -/
theorem release_conserves (value : Value) : Conserves [value] (release value) fun _ => [] :=
  onHeap_conserves (Heap.releaseValue_conserves value)

/-- Printing a line is about no reference. -/
theorem printLine_conserves (line : String) : Conserves [] (printLine line) fun _ => [] :=
  fun _ _ balanced => ⟨balanced, trivial⟩

/-- Popping an operand of one type. The answer has the reference that the operand had. -/
theorem popAs_conserves {α : Type} {expected : Shape} {read? : Value → Option α}
    {given : α → List Value}
    (passes : ∀ value inner, read? value = some inner →
      ∀ id : ArrayId, (given inner).count (.array id) = [value].count (.array id)) :
    Conserves [] (popAs expected read?) given := by
  refine pop_conserves.bind fun value _ => ?_
  cases read : read? value with
  | some inner =>
    exact Conserves.of_count_eq (Conserves.pure rfl trivial) fun id =>
      (passes value inner read id).symm
  | none => exact (release_conserves value).bind fun _ _ => Conserves.throw rfl

/-- An integer that has been popped is nothing to give back. -/
theorem popInt_conserves : Conserves [] popInt fun _ => [] := by
  refine popAs_conserves fun value n read id => ?_
  cases value <;> simp_all [Value.asInt?]

/-- A float that has been popped is nothing to give back. -/
theorem popFloat_conserves : Conserves [] popFloat fun _ => [] := by
  refine popAs_conserves fun value x read id => ?_
  cases value <;> simp_all [Value.asFloat?]

/-- A boolean that has been popped is nothing to give back. -/
theorem popBool_conserves : Conserves [] popBool fun _ => [] := by
  refine popAs_conserves fun value b read id => ?_
  cases value <;> simp_all [Value.asBool?]

/-- An array that has been popped is in hand. -/
theorem popArray_conserves : Conserves [] popArray fun id => [.array id] := by
  refine popAs_conserves fun value id read other => ?_
  cases value <;> simp_all [Value.asArray?]

end Operands

section Operations

/-- A divisor is looked at and stays on the stack. -/
theorem requireDivisor_conserves (isZero : Value → Bool) :
    Conserves [] (requireDivisor isZero) fun _ => [] := by
  refine peek_conserves.bind fun divisor _ => ?_
  split
  next => exact Conserves.throw rfl
  next => exact Conserves.pure rfl trivial

/-- An operation on integers has a result without a reference. -/
theorem intBinary_conserves {result : Int64 → Int64 → Value}
    (plain : ∀ a b, (result a b).isReference = false) :
    Conserves [] (intBinary result) fun _ => [] :=
  popInt_conserves.bind fun b _ => popInt_conserves.bind fun a _ =>
    push_conserves_of_not_reference (plain a b)

/-- An operation on floats has a result without a reference. -/
theorem floatBinary_conserves {result : Double → Double → Value}
    (plain : ∀ a b, (result a b).isReference = false) :
    Conserves [] (floatBinary result) fun _ => [] :=
  popFloat_conserves.bind fun b _ => popFloat_conserves.bind fun a _ =>
    push_conserves_of_not_reference (plain a b)

/-- A constant is pushed without a reference. -/
theorem pushConstant_conserves {α : Type} (table : Array α) (index : Nat) {value : α → Value}
    (plain : ∀ constant, (value constant).isReference = false) :
    Conserves [] (pushConstant table index value) fun _ => [] := by
  unfold pushConstant
  split
  next constant _ => exact push_conserves_of_not_reference (plain constant)
  next => exact Conserves.throw rfl

/-- A value that is printed is given back, printed or not. -/
theorem print_conserves : Conserves [] print fun _ => [] := by
  refine pop_conserves.bind fun value _ => ?_
  refine (attempt_onHeap_conserves (Heap.textOf_conserves value)).bind fun line spared => ?_
  refine (release_conserves value).bind fun _ _ => ?_
  exact (Conserves.settle spared).bind fun text _ => printLine_conserves text

/-- Stepping a slot writes an integer over an integer. -/
theorem addToLocal_conserves (index : Nat) (amount : Int64) :
    Conserves [] (addToLocal index amount) fun _ => [] :=
  (onLocals_conserves (Locals.getInt_conserves index)).bind fun n _ =>
    onLocals_conserves (Locals.setInt_conserves index (n + amount))

/-- The reference to a new array is handed out. -/
theorem allocate_conserves (contents : Elements) :
    Conserves [] (onHeap fun h => let (id, h) := h.allocate contents; .ok id h)
      fun id => [.array id] := by
  refine onHeap_conserves fun h others balanced => ?_
  have balance := (balanced_heap_iff.mp balanced).allocate contents
  exact ⟨balanced_heap_iff.mpr balance, trivial⟩

/-- A length that is refused is no fault in the counting of references. -/
theorem arrayLength_spared (limit : Nat) (requested : Int64) :
    Spared (fun _ => True) (arrayLength limit requested) := by
  unfold arrayLength
  split
  next => rfl
  next => split <;> trivial

/-- An array that has been made is on the stack, or given back for want of room. -/
theorem newArray_conserves (tag : Nat) : Conserves [] (newArray tag) fun _ => [] := by
  unfold newArray
  split
  next => exact Conserves.throw rfl
  next type _ =>
    refine popInt_conserves.bind fun requested _ => ?_
    refine (Conserves.ofExcept fun m : Machine => arrayLength_spared m.limits.arrayLength requested).bind
      fun length _ => ?_
    exact (allocate_conserves (.zeros type length)).bind fun id _ => push_conserves (.array id)

/-- The array that is loaded from is given back, and the element is a new reference. -/
theorem arrayLoad_conserves : Conserves [] arrayLoad fun _ => [] := by
  refine popInt_conserves.bind fun index _ => popArray_conserves.bind fun id _ => ?_
  refine (attempt_onHeap_conserves (Heap.load_conserves id index)).bind fun element spared => ?_
  refine (release_conserves (.array id)).bind fun _ _ => ?_
  exact (Conserves.settle spared).bind fun value plain => push_conserves_of_not_reference plain

/-- What is stored is no reference; a value that is refused stays in hand. -/
theorem storeElement_conserves (value : Value) :
    Conserves [] (storeElement value) (fun _ => []) fun _ => value.isReference = false := by
  refine popInt_conserves.bind fun index _ => popArray_conserves.bind fun id _ => ?_
  refine (attempt_onHeap_conserves (Heap.store_conserves id index value)).bind fun stored spared => ?_
  exact (release_conserves (.array id)).bind fun _ _ => Conserves.settle spared

/-- A value that is stored is the array's, and one that is not is given back. -/
theorem arrayStore_conserves : Conserves [] arrayStore fun _ => [] := by
  refine pop_conserves.bind fun value _ => ?_
  refine ((storeElement_conserves value).attempt [value]).bind fun stored spared => ?_
  cases stored with
  | ok _ => exact (Conserves.cons_iff_of_not_reference spared).mpr (Conserves.pure rfl trivial)
  | error fault => exact (release_conserves value).bind fun _ _ => Conserves.throw spared

/-- The array whose length is asked for is given back. -/
theorem pushLength_conserves : Conserves [] pushLength fun _ => [] := by
  refine popArray_conserves.bind fun id _ => ?_
  refine (attempt_onHeap_conserves (Heap.length_conserves id)).bind fun length spared => ?_
  refine (release_conserves (.array id)).bind fun _ _ => ?_
  exact (Conserves.settle spared).bind fun count _ => push_conserves_of_not_reference rfl

/-- A jump out of its function is no fault in the counting of references. -/
theorem jumpTarget_spared (i : Instruction) (address length : Nat) :
    Spared (fun _ => True) (jumpTarget i address length) := by
  unfold jumpTarget
  dsimp only
  split <;> trivial

/-- A jump leaves nothing in hand, whether or not it is taken. -/
theorem jump_conserves (condition : Condition) {target : Except Fault Nat}
    (spared : Spared (fun _ => True) target) :
    Conserves [] (jump condition target) Transfer.inHand := by
  have taken : Conserves (σ := Machine) []
      (do return Transfer.goto (← Action.settle target)) Transfer.inHand :=
    (Conserves.settle spared).bind fun address _ =>
      Conserves.pure rfl trivial
  cases condition with
  | always => exact taken
  | when expected =>
    refine popBool_conserves.bind fun b _ => ?_
    split
    next => exact taken
    next => exact Conserves.pure rfl trivial

/-- An operation after which control goes to the instruction that follows. -/
theorem next_conserves {taken : List Value} {operation : Action Machine Unit}
    (spec : Conserves taken operation fun _ => []) :
    Conserves taken (do operation; return Transfer.next) Transfer.inHand :=
  spec.bind fun _ _ => Conserves.pure rfl trivial

end Operations

/-- The only reference that an instruction leaves in hand is that of the value it returns. -/
theorem perform_conserves (p : Program) (i : Instruction) (address length : Nat) :
    Conserves [] (perform p i address length) Transfer.inHand := by
  unfold perform
  cases i.opcode with
  | nop => exact Conserves.pure rfl trivial
  | pop => exact next_conserves (onStack_conserves OperandStack.drop_conserves)
  | dup => exact next_conserves (onStack_conserves OperandStack.dup_conserves)
  | print => exact next_conserves print_conserves
  | pushInt => exact next_conserves (pushConstant_conserves _ _ fun _ => rfl)
  | pushFloat => exact next_conserves (pushConstant_conserves _ _ fun _ => rfl)
  | pushBool b => exact next_conserves (push_conserves_of_not_reference rfl)
  | loadLocal =>
    exact (onLocals_conserves (Locals.load_conserves i.index)).bind fun value _ =>
      next_conserves (push_conserves value)
  | storeLocal =>
    exact pop_conserves.bind fun value _ =>
      next_conserves (onLocals_conserves (Locals.store_conserves i.index value))
  | stepLocal direction => exact next_conserves (addToLocal_conserves _ _)
  | intBinary operation =>
    have result := next_conserves (intBinary_conserves fun a b =>
      (rfl : (Value.int (operation.apply a b)).isReference = false))
    dsimp only
    split
    next => exact (requireDivisor_conserves isIntZero).bind fun _ _ => result
    next => exact result
  | negInt =>
    exact popInt_conserves.bind fun n _ => next_conserves (push_conserves_of_not_reference rfl)
  | floatBinary operation =>
    have result := next_conserves (floatBinary_conserves fun a b =>
      (rfl : (Value.float (operation.apply a b)).isReference = false))
    dsimp only
    split
    next => exact (requireDivisor_conserves isFloatZero).bind fun _ _ => result
    next => exact result
  | negFloat =>
    exact popFloat_conserves.bind fun x _ => next_conserves (push_conserves_of_not_reference rfl)
  | intToFloat =>
    exact popInt_conserves.bind fun n _ => next_conserves (push_conserves_of_not_reference rfl)
  | floatToInt =>
    exact popFloat_conserves.bind fun x _ => next_conserves (push_conserves_of_not_reference rfl)
  | not =>
    exact popBool_conserves.bind fun b _ => next_conserves (push_conserves_of_not_reference rfl)
  | compareInt comparison => exact next_conserves (intBinary_conserves fun _ _ => rfl)
  | compareFloat comparison => exact next_conserves (floatBinary_conserves fun _ _ => rfl)
  | jump condition => exact jump_conserves condition (jumpTarget_spared i address length)
  | newArray => exact next_conserves (newArray_conserves i.index)
  | arrayLoad => exact next_conserves arrayLoad_conserves
  | arrayStore => exact next_conserves arrayStore_conserves
  | arrayLength => exact next_conserves pushLength_conserves
  | call => exact Conserves.pure rfl trivial
  | ret => exact pop_conserves.bind fun value _ => Conserves.pure rfl trivial
  | retVoid => exact Conserves.pure rfl trivial


end Machine

end HotPath
