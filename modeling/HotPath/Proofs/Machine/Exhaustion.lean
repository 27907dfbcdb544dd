import HotPath.Proofs.Machine.Effects

/-!
# A stack underflow is for want of operands

A machine faults with a stack underflow where an operand is missing, and where it asks for a frame
and there is none. The latter leaves it without frames, so as long as a call is in progress a
stack underflow is always the former: `perform_exhausts` says that an instruction that faults so
has used up the operands of its own call.
-/

namespace HotPath

namespace Action

variable {σ α β : Type} {P Q : σ → Prop}

/-- Wherever the action faults with a stack underflow, this holds of the state that it leaves. -/
def UnderflowsIn (P : σ → Prop) (action : Action σ α) : Prop :=
  ∀ state after, action state = .error .stackUnderflow after → P after

/-- The action faults otherwise than with a stack underflow, if it faults. -/
abbrev NeverUnderflows (action : Action σ α) : Prop := UnderflowsIn (fun _ => False) action

namespace UnderflowsIn

/-- Answering is no fault. -/
theorem pure (answer : α) : UnderflowsIn P (Pure.pure answer : Action σ α) := by
  intro state after failed
  cases failed

/-- Another fault is no stack underflow. -/
theorem throw {fault : Fault} (other : fault ≠ .stackUnderflow) :
    UnderflowsIn P (MonadExcept.throw fault : Action σ α) := by
  intro state after failed
  cases failed
  exact absurd rfl other

/-- A read may underflow only in states of which this holds. -/
theorem ofExcept {read : σ → Except Fault α}
    (shown : ∀ state, read state = .error .stackUnderflow → P state) :
    UnderflowsIn P (Action.ofExcept read) := by
  intro state after failed
  have shown := shown state
  unfold Action.ofExcept at failed
  cases result : read state with
  | ok answer =>
    rw [result] at failed
    cases failed
  | error fault =>
    rw [result] at failed shown
    cases failed
    exact shown rfl

/-- An answer that has been worked out before underflows only if it is that fault. -/
theorem settle {answer : Except Fault α} (other : answer ≠ .error .stackUnderflow) :
    UnderflowsIn P (Action.settle answer : Action σ α) :=
  ofExcept fun _ failed => absurd failed other

/-- A sequence underflows in its first action or in what follows the answer. -/
theorem bind {action : Action σ α} {rest : α → Action σ β} (first : UnderflowsIn P action)
    (second : ∀ answer, UnderflowsIn P (rest answer)) : UnderflowsIn P (action >>= rest) := by
  intro state after failed
  rw [bind_apply] at failed
  cases ran : action state with
  | ok answer between =>
    rw [ran] at failed
    exact second answer between after failed
  | error fault between =>
    rw [ran] at failed
    cases failed
    exact first state after ran

/-- Forgetting the answer of an action leaves its faults alone. -/
theorem discard {action : Action σ α} (spec : UnderflowsIn P action) :
    UnderflowsIn P (discard action : Action σ Unit) := by
  intro state after failed
  rw [discard_apply] at failed
  cases ran : action state with
  | ok answer between =>
    rw [ran] at failed
    cases failed
  | error fault between =>
    rw [ran] at failed
    cases failed
    exact spec state after ran

/-- A stack underflow that is held back is none until something is made of it. -/
theorem attempt {action : Action σ α} (spec : UnderflowsIn Q action)
    {rest : Except Fault α → Action σ β}
    (otherwise : ∀ outcome, outcome ≠ .error .stackUnderflow → UnderflowsIn P (rest outcome))
    (later : ∀ state after, Q state →
      rest (.error .stackUnderflow) state = .error .stackUnderflow after → P after) :
    UnderflowsIn P (Action.attempt action >>= rest) := by
  intro state after failed
  rw [bind_apply] at failed
  unfold Action.attempt at failed
  cases ran : action state with
  | ok answer between =>
    rw [ran] at failed
    exact otherwise _ (by simp) between after failed
  | error fault between =>
    rw [ran] at failed
    by_cases underflow : fault = .stackUnderflow
    · subst underflow
      exact later between after (spec state between ran) failed
    · exact otherwise _ (by simpa using underflow) between after failed

/-- An action on the left half of a pair underflows as it does on its own. -/
theorem onLeft {τ : Type} {action : Action σ α} (spec : UnderflowsIn P action) :
    UnderflowsIn (fun state : σ × τ => P state.1) (Action.onLeft action) := by
  rintro ⟨left, right⟩ after failed
  unfold Action.onLeft at failed
  cases ran : action left with
  | ok answer between =>
    simp only [ran] at failed
    cases failed
  | error fault between =>
    simp only [ran] at failed
    cases failed
    exact spec left between ran

/-- An action on one half of a pair never underflows if it never does on its own. -/
theorem onLeft_never {τ : Type} {P : σ × τ → Prop} {action : Action σ α}
    (never : NeverUnderflows action) : UnderflowsIn P (Action.onLeft action) :=
  fun state after failed => (never.onLeft state after failed).elim

/-- An action on the right half of a pair never underflows if it never does on its own. -/
theorem onRight_never {τ : Type} {P : τ × σ → Prop} {action : Action σ α}
    (never : NeverUnderflows action) : UnderflowsIn P (Action.onRight action) := by
  rintro ⟨left, right⟩ after failed
  unfold Action.onRight at failed
  cases ran : action right with
  | ok answer between =>
    simp only [ran] at failed
    cases failed
  | error fault between =>
    simp only [ran] at failed
    cases failed
    exact (never right between ran).elim

end UnderflowsIn

end Action

open HotPath.Action

namespace Heap

/-- Looking into an array underflows only if reading the cell does. -/
theorem inspect_never {α : Type} (id : ArrayId) {read : Cell → Except Fault α}
    (other : ∀ cell, read cell ≠ .error .stackUnderflow) : NeverUnderflows (inspect id read) := by
  refine .ofExcept fun h failed => ?_
  unfold lookUp at failed
  cases found : h.find? id with
  | none =>
    rw [found] at failed
    cases failed
  | some cell =>
    rw [found] at failed
    exact other cell failed

/-- Taking a reference reports a dead id, and no underflow. -/
theorem retainValue_never (value : Value) : NeverUnderflows (retainValue value) := by
  cases value with
  | array id =>
    intro h after failed
    cases found : h.find? id with
    | none => cases (retain_of_absent found).symm.trans failed
    | some cell => cases (retain_of_find? found).symm.trans failed
  | _ => exact .pure ()

/-- Giving back a reference reports a dead id or a count that is wrong, and no underflow. -/
theorem release_never (id : ArrayId) : NeverUnderflows (release id) := by
  intro h after failed
  unfold release at failed
  repeat' split at failed
  all_goals cases failed

/-- Giving back a value never underflows. -/
theorem releaseValue_never (value : Value) : NeverUnderflows (releaseValue value) := by
  cases value with
  | array id => exact (release_never id).discard
  | _ => exact .pure ()

/-- Asking for the text of a value never underflows. -/
theorem textOf_never (value : Value) : NeverUnderflows (textOf value) := by
  cases value with
  | array id => exact (inspect_never id fun _ => by simp).bind fun _ => .pure _
  | _ => exact .pure _

/-- Asking for a length never underflows. -/
theorem length_never (id : ArrayId) : NeverUnderflows (length id) :=
  inspect_never id fun _ => by simp

/-- Loading an element never underflows. -/
theorem load_never (id : ArrayId) (index : Int64) : NeverUnderflows (load id index) := by
  refine inspect_never id fun cell => ?_
  split <;> simp

/-- Whatever keeps a value out of an array, it is not that an operand is missing. -/
theorem storePlace_ne_underflow (contents : Elements) (index : Int64) (value : Value) :
    storePlace contents index value ≠ .error .stackUnderflow := by
  unfold storePlace
  split
  next => simp
  next => split <;> simp [Fault.elementMismatch]

/-- Storing an element never underflows. -/
theorem store_never (id : ArrayId) (index : Int64) (value : Value) :
    NeverUnderflows (store id index value) := by
  intro h after failed
  unfold store lookUp at failed
  cases found : h.find? id with
  | none =>
    rw [found] at failed
    cases failed
  | some cell =>
    have other := storePlace_ne_underflow cell.contents index value
    simp only [found, bind, Except.bind] at failed
    generalize storePlace cell.contents index value = result at failed other
    cases result with
    | ok answer => cases failed
    | error fault =>
      cases failed
      exact other rfl

end Heap

namespace OperandStack

/-- The present call sees no operand. -/
def Exhausted (s : OperandStack) : Prop := s.entries.size ≤ s.base

/-- An operand is missing only where the present call sees none. -/
theorem exhausted_of_peek {s : OperandStack} (failed : s.peek = .error .stackUnderflow) :
    s.Exhausted := by
  rcases s.visible_cases with ⟨below, value, entries, visible⟩ | starved
  · rw [Machine.peek_eq entries visible] at failed
    cases failed
  · exact starved

/-- A pop that underflows leaves the stack exhausted, as it was. -/
theorem pop_exhausts : UnderflowsIn Exhausted pop := by
  intro s after failed
  unfold pop at failed
  cases found : s.peek with
  | ok value =>
    rw [found] at failed
    cases failed
  | error fault =>
    rw [found] at failed
    cases failed
    exact exhausted_of_peek found

/-- A push reports an overflow, and no underflow. -/
theorem push_never (value : Value) : NeverUnderflows (push value) := by
  intro s after failed
  unfold push at failed
  split at failed <;> cases failed

/-- A push never underflows, nor does giving back the value that it has no room for. -/
theorem pushOrRelease_never (value : Value) : NeverUnderflows (pushOrRelease value) := by
  rintro ⟨s, h⟩ after failed
  unfold pushOrRelease at failed
  cases pushed : push value s with
  | ok _ s =>
    simp only [pushed] at failed
    cases failed
  | error full s =>
    simp only [pushed] at failed
    cases released : Heap.releaseValue value h with
    | ok _ h =>
      simp only [released] at failed
      cases failed
      exact push_never value _ _ pushed
    | error fault h =>
      simp only [released] at failed
      cases failed
      exact Heap.releaseValue_never value _ _ released

/-- Dropping an operand underflows for want of one. -/
theorem drop_exhausts : UnderflowsIn (fun state => Exhausted state.1) drop :=
  pop_exhausts.onLeft.bind fun value => .onRight_never (Heap.releaseValue_never value)

/-- Doubling an operand underflows for want of one. -/
theorem dup_exhausts : UnderflowsIn (fun state => Exhausted state.1) dup :=
  (UnderflowsIn.ofExcept fun _ => exhausted_of_peek).onLeft.bind fun value =>
    (UnderflowsIn.onLeft_never (push_never value)).bind fun _ =>
      .onRight_never (Heap.retainValue_never value)

end OperandStack

namespace Locals

/-- Reading a slot that is missing is no stack underflow. -/
theorem get_ne_underflow (l : Locals) (index : Nat) : l.get index ≠ .error .stackUnderflow := by
  unfold get
  split <;> simp [missing]

/-- Reading an integer that is not in a slot is no stack underflow. -/
theorem getInt_ne_underflow (l : Locals) (index : Nat) :
    l.getInt index ≠ .error .stackUnderflow := by
  have other := l.get_ne_underflow index
  unfold getInt
  generalize l.get index = result at other
  cases result with
  | error fault => simpa [bind, Except.bind] using other
  | ok value =>
    simp only [bind, Except.bind]
    split <;> simp

/-- Loading a slot never underflows. -/
theorem load_never (index : Nat) : NeverUnderflows (load index) := by
  have reads : NeverUnderflows (Action.ofExcept fun l : Locals => l.get index) :=
    .ofExcept fun l => l.get_ne_underflow index
  exact (UnderflowsIn.onLeft_never reads).bind fun value =>
    (UnderflowsIn.onRight_never (Heap.retainValue_never value)).bind fun _ => .pure value

/-- Storing into a slot never underflows. -/
theorem store_never (index : Nat) (value : Value) : NeverUnderflows (store index value) := by
  rintro ⟨l, h⟩ after failed
  unfold store at failed
  cases found : l.slots[index]? with
  | some previous =>
    simp only [found] at failed
    have spared : NeverUnderflows (onRight (Heap.releaseValue previous) : Action (Locals × Heap) _) :=
      .onRight_never (Heap.releaseValue_never previous)
    exact spared (l.put index value, h) after failed
  | none =>
    simp only [found] at failed
    cases released : Heap.releaseValue value h with
    | ok _ h =>
      simp only [released] at failed
      cases failed
    | error fault h =>
      simp only [released] at failed
      cases failed
      exact Heap.releaseValue_never value _ _ released

/-- Changing an integer slot never underflows. -/
theorem setInt_never (index : Nat) (n : Int64) : NeverUnderflows (setInt index n) := by
  intro l after failed
  unfold setInt at failed
  cases found : l.getInt index with
  | ok _ =>
    rw [found] at failed
    cases failed
  | error fault =>
    rw [found] at failed
    cases failed
    exact l.getInt_ne_underflow index found

end Locals

namespace Machine

/-- A call is in progress and sees no operand, or no call is in progress. -/
def Exhausted (m : Machine) : Prop := m.frames ≠ [] → m.stack.Exhausted

section Parts

variable {α : Type} {P : Machine → Prop}

/-- What never underflows on the heap never does in a machine. -/
theorem onHeap_never {action : Action Heap α} (never : NeverUnderflows action) :
    UnderflowsIn P (onHeap action) := by
  rintro ⟨limits, heap, stack, calls, output, counts⟩ after failed
  unfold onHeap at failed
  cases ran : action heap with
  | ok answer between =>
    simp only [ran] at failed
    cases failed
  | error fault between =>
    simp only [ran] at failed
    cases failed
    exact (never heap between ran).elim

/-- Where operands are missing on the stack, the machine is exhausted. -/
theorem onStack_exhausts {action : Action (OperandStack × Heap) α}
    (spec : UnderflowsIn (fun state => OperandStack.Exhausted state.1) action) :
    UnderflowsIn Exhausted (onStack action) := by
  rintro ⟨limits, heap, stack, calls, output, counts⟩ after failed
  unfold onStack at failed
  cases ran : action (stack, heap) with
  | ok answer between =>
    simp only [ran] at failed
    cases failed
  | error fault between =>
    simp only [ran] at failed
    cases failed
    exact fun _ => spec (stack, heap) between ran

/-- Without a frame there are no slots; the fault leaves no frame either. -/
theorem onLocals_exhausts {action : Action (Locals × Heap) α} (never : NeverUnderflows action) :
    UnderflowsIn Exhausted (onLocals action) := by
  rintro ⟨limits, heap, stack, calls, output, counts⟩ after failed
  unfold onLocals at failed
  obtain rfl | ⟨frame, callers, rfl⟩ := calls.eq_empty_or_push
  · cases failed
    exact fun running => absurd rfl running
  · cases ran : action (frame.locals, heap) with
    | ok answer between =>
      simp only [CallStack.pop?_push, ran] at failed
      cases failed
    | error fault between =>
      simp only [CallStack.pop?_push, ran] at failed
      cases failed
      exact (never _ between ran).elim

end Parts

section Operations

/-- A push underflows in no state, exhausted or not. -/
theorem push_exhausts (value : Value) : UnderflowsIn Exhausted (push value) :=
  onStack_exhausts fun state after failed =>
    (OperandStack.pushOrRelease_never value state after failed).elim

/-- A pop underflows for want of an operand. -/
theorem pop_exhausts : UnderflowsIn Exhausted pop :=
  onStack_exhausts OperandStack.pop_exhausts.onLeft

/-- Looking at the top operand underflows for want of one. -/
theorem peek_exhausts : UnderflowsIn Exhausted peek :=
  onStack_exhausts (UnderflowsIn.ofExcept fun _ => OperandStack.exhausted_of_peek).onLeft

/-- Giving a value back underflows in no state. -/
theorem release_exhausts (value : Value) : UnderflowsIn Exhausted (release value) :=
  onHeap_never (Heap.releaseValue_never value)

/-- Printing a line is no fault at all. -/
theorem printLine_exhausts (line : String) : UnderflowsIn Exhausted (printLine line) := by
  intro m after failed
  cases failed

/-- Popping a value of some shape underflows in the pop only. -/
theorem popAs_exhausts {α : Type} (expected : Shape) (read? : Value → Option α) :
    UnderflowsIn Exhausted (popAs expected read?) := by
  refine pop_exhausts.bind fun value => ?_
  cases read? value with
  | some inner => exact .pure inner
  | none => exact (release_exhausts value).bind fun _ => .throw (by simp)

/-- Looking at a divisor underflows for want of one. -/
theorem requireDivisor_exhausts (isZero : Value → Bool) :
    UnderflowsIn Exhausted (requireDivisor isZero) := by
  refine peek_exhausts.bind fun divisor => ?_
  split
  next => exact .throw (by simp)
  next => exact .pure _

/-- An operation on two integers underflows where one of them is missing. -/
theorem intBinary_exhausts (result : Int64 → Int64 → Value) :
    UnderflowsIn Exhausted (intBinary result) :=
  (popAs_exhausts _ _).bind fun b => (popAs_exhausts _ _).bind fun a => push_exhausts (result a b)

/-- An operation on two floats underflows where one of them is missing. -/
theorem floatBinary_exhausts (result : Double → Double → Value) :
    UnderflowsIn Exhausted (floatBinary result) :=
  (popAs_exhausts _ _).bind fun b => (popAs_exhausts _ _).bind fun a => push_exhausts (result a b)

/-- Pushing a constant underflows in no state. -/
theorem pushConstant_exhausts {α : Type} (table : Array α) (index : Nat) (value : α → Value) :
    UnderflowsIn Exhausted (pushConstant table index value) := by
  unfold pushConstant
  split
  next => exact push_exhausts _
  next => exact .throw (by simp)

/-- What the heap says is used once something has been given back. -/
theorem held_exhausts {α β : Type} {action : Action Heap α} (never : NeverUnderflows action)
    (value : Value) {rest : Except Fault α → Action Machine β}
    (later : ∀ outcome, outcome ≠ .error .stackUnderflow → UnderflowsIn Exhausted (rest outcome)) :
    UnderflowsIn Exhausted (do
      let outcome ← attempt (onHeap action)
      release value
      rest outcome) := by
  have spared : NeverUnderflows (onHeap action) := onHeap_never never
  refine spared.attempt ?_ fun _ _ impossible => impossible.elim
  intro outcome other
  exact (release_exhausts value).bind fun _ => later outcome other

/-- Printing a value underflows for want of one. -/
theorem print_exhausts : UnderflowsIn Exhausted print :=
  pop_exhausts.bind fun value =>
    held_exhausts (Heap.textOf_never value) value fun _ other =>
      (UnderflowsIn.settle other).bind printLine_exhausts

/-- Stepping a slot underflows only without a frame, and then no call is in progress. -/
theorem addToLocal_exhausts (index : Nat) (amount : Int64) :
    UnderflowsIn Exhausted (addToLocal index amount) := by
  have reads : NeverUnderflows (Action.ofExcept fun l : Locals => l.getInt index) :=
    .ofExcept fun l => l.getInt_ne_underflow index
  exact (onLocals_exhausts (.onLeft_never reads)).bind fun n =>
    onLocals_exhausts (.onLeft_never (Locals.setInt_never index _))

/-- Making an array underflows where its length is missing. -/
theorem newArray_exhausts (tag : Nat) : UnderflowsIn Exhausted (newArray tag) := by
  unfold newArray
  split
  next => exact .throw (by simp [Fault.unknownElementTag])
  next type _ =>
    refine (popAs_exhausts _ _).bind fun requested => ?_
    refine (UnderflowsIn.ofExcept fun m failed => ?_).bind fun length => ?_
    · unfold arrayLength at failed
      repeat' split at failed
      all_goals cases failed
    · refine UnderflowsIn.bind (onHeap_never fun h after failed => ?_) fun id => push_exhausts _
      cases failed

/-- Loading an element underflows where the index or the array is missing. -/
theorem arrayLoad_exhausts : UnderflowsIn Exhausted arrayLoad :=
  (popAs_exhausts _ _).bind fun index => (popAs_exhausts _ _).bind fun id =>
    held_exhausts (Heap.load_never id index) (.array id) fun _ other =>
      (UnderflowsIn.settle other).bind push_exhausts

/-- Asking for a length underflows where the array is missing. -/
theorem pushLength_exhausts : UnderflowsIn Exhausted pushLength :=
  (popAs_exhausts _ _).bind fun id =>
    held_exhausts (Heap.length_never id) (.array id) fun _ other =>
      (UnderflowsIn.settle other).bind fun _ => push_exhausts _

/-- Storing an element underflows where the index or the array is missing. -/
theorem storeElement_exhausts (value : Value) : UnderflowsIn Exhausted (storeElement value) :=
  (popAs_exhausts _ _).bind fun index => (popAs_exhausts _ _).bind fun id =>
    held_exhausts (Heap.store_never id index value) (.array id) fun _ => .settle

/-- Giving the value back after a failed store takes no operands, so the stack is exhausted
still. -/
theorem arrayStore_exhausts : UnderflowsIn Exhausted arrayStore := by
  refine pop_exhausts.bind fun value => (storeElement_exhausts value).attempt ?_ ?_
  · intro outcome other
    cases outcome with
    | ok _ => exact .pure _
    | error fault => exact (release_exhausts value).bind fun _ => .throw (by simpa using other)
  · -- Giving the value back changes neither the operands nor the frames.
    rintro ⟨limits, heap, stack, calls, output, counts⟩ after exhausted failed
    simp only [bind_apply, release, onHeap] at failed
    cases released : Heap.releaseValue value heap with
    | ok _ between =>
      simp only [released] at failed
      cases failed
      exact exhausted
    | error fault between =>
      simp only [released] at failed
      cases failed
      exact exhausted

/-- A jump underflows where its condition is missing. -/
theorem jump_exhausts (condition : Condition) {target : Except Fault Nat}
    (other : target ≠ .error .stackUnderflow) : UnderflowsIn Exhausted (jump condition target) := by
  have taken : UnderflowsIn Exhausted (do return Transfer.goto (← settle target)) :=
    (UnderflowsIn.settle other).bind fun _ => .pure _
  cases condition with
  | always => exact taken
  | when expected =>
    refine (popAs_exhausts _ _).bind fun b => ?_
    split
    next => exact taken
    next => exact .pure _

/-- Going on to the next instruction is no fault. -/
theorem next_exhausts {operation : Action Machine Unit} (spec : UnderflowsIn Exhausted operation) :
    UnderflowsIn Exhausted (do operation; return Transfer.next) :=
  spec.bind fun _ => .pure _

/-- A jump that leads out of its function is no stack underflow. -/
theorem jumpTarget_ne_underflow (i : Instruction) (address length : Nat) :
    jumpTarget i address length ≠ .error .stackUnderflow := by
  unfold jumpTarget
  dsimp only
  split <;> simp

/-- An instruction faults with a stack underflow only once the operands of its call are used
up. -/
theorem perform_exhausts (p : Program) (i : Instruction) (address length : Nat) :
    UnderflowsIn Exhausted (perform p i address length) := by
  unfold perform
  cases i.opcode with
  | nop | call | retVoid => exact .pure _
  | pop => exact next_exhausts (onStack_exhausts OperandStack.drop_exhausts)
  | dup => exact next_exhausts (onStack_exhausts OperandStack.dup_exhausts)
  | print => exact next_exhausts print_exhausts
  | pushInt | pushFloat => exact next_exhausts (pushConstant_exhausts _ _ _)
  | pushBool b => exact next_exhausts (push_exhausts _)
  | loadLocal =>
    exact (onLocals_exhausts (Locals.load_never _)).bind fun value =>
      next_exhausts (push_exhausts value)
  | storeLocal =>
    exact pop_exhausts.bind fun value => next_exhausts (onLocals_exhausts (Locals.store_never _ value))
  | stepLocal direction => exact next_exhausts (addToLocal_exhausts _ _)
  | intBinary operation =>
    dsimp only
    split
    next => exact (requireDivisor_exhausts _).bind fun _ => next_exhausts (intBinary_exhausts _)
    next => exact next_exhausts (intBinary_exhausts _)
  | floatBinary operation =>
    dsimp only
    split
    next => exact (requireDivisor_exhausts _).bind fun _ => next_exhausts (floatBinary_exhausts _)
    next => exact next_exhausts (floatBinary_exhausts _)
  | negInt | negFloat | intToFloat | floatToInt | not =>
    exact (popAs_exhausts _ _).bind fun _ => next_exhausts (push_exhausts _)
  | compareInt comparison => exact next_exhausts (intBinary_exhausts _)
  | compareFloat comparison => exact next_exhausts (floatBinary_exhausts _)
  | jump condition => exact jump_exhausts condition (jumpTarget_ne_underflow i address length)
  | newArray => exact next_exhausts (newArray_exhausts _)
  | arrayLoad => exact next_exhausts arrayLoad_exhausts
  | arrayStore => exact next_exhausts arrayStore_exhausts
  | arrayLength => exact next_exhausts pushLength_exhausts
  | ret => exact pop_exhausts.bind fun value => .pure _

end Operations

end Machine

end HotPath
