import HotPath.Proofs.Machine.Locality
import HotPath.Proofs.Store.Balance

/-!
# What instructions are made of

An instruction is a sequence of small parts: it pops and pushes operands, acts on the heap and
on the slots, reads a limit, prints, and hands control over. `Composed` is the grammar of
these sequences, and `perform_composed` and `leave_composed` find every instruction in it. A law
that holds of the parts and is kept by putting them together holds of all instructions then,
by induction on how they are composed.

Two things are written down on the way, because laws depend on them. No part reports that code
cannot be read or is left (`Fault.Ordinary`), which is up to the instructions themselves. And
`strikes` are the faults by which a sequence may report a limit: those of a push without room,
and those of an array that would be too long.
-/

namespace HotPath

/-- The fault is not that an instruction cannot be read or that a jump leaves the function. -/
def Fault.Ordinary (fault : Fault) : Prop := fault.code ≠ .invalidOpcode

/-- A reference that has been counted wrongly has nothing to do with the code. -/
theorem Fault.ordinary_of_blamesCounting {fault : Fault} (blames : fault.blamesCounting = true) :
    fault.Ordinary := by
  cases fault with
  | invalidHeapId | negativeRefCount => simp [Fault.Ordinary, Fault.code]
  | _ => cases blames

/-- What a push without room may report: that there is none, or that the value cannot be given
back. -/
def Fault.Crowded (fault : Fault) : Prop :=
  (∃ limit, fault = .stackOverflow limit) ∨ fault.blamesCounting = true

/-- What a request for an array that is too long reports. -/
def Fault.Oversized (fault : Fault) : Prop :=
  ∃ (requested : Int64) (limit : Nat), limit < requested.toInt.toNat ∧
    fault = .arrayIndexOutOfBounds requested limit

namespace Action

variable {σ τ α β : Type} {P : Fault → Prop}

/-- Whatever the action faults with has this property. -/
def FaultsWith (P : Fault → Prop) (action : Action σ α) : Prop :=
  ∀ state fault after, action state = .error fault after → P fault

namespace FaultsWith

/-- A property of the faults may be weakened. -/
theorem mono {Q : Fault → Prop} {action : Action σ α} (spec : FaultsWith P action)
    (weaker : ∀ fault, P fault → Q fault) : FaultsWith Q action :=
  fun state fault after failed => weaker fault (spec state fault after failed)

/-- Answering is no fault. -/
theorem pure (answer : α) : FaultsWith P (Pure.pure answer : Action σ α) := by
  intro state fault after failed
  cases failed

/-- Giving up with a fault faults with just that one. -/
theorem throw {fault : Fault} (holds : P fault) :
    FaultsWith P (MonadExcept.throw fault : Action σ α) := by
  intro state other after failed
  cases failed
  exact holds

/-- Reading a state faults with what the read answers. -/
theorem ofExcept {read : σ → Except Fault α}
    (holds : ∀ state fault, read state = .error fault → P fault) :
    FaultsWith P (Action.ofExcept read) := by
  intro state fault after failed
  have holds := holds state fault
  unfold Action.ofExcept at failed
  cases result : read state with
  | ok answer =>
    rw [result] at failed
    cases failed
  | error other =>
    rw [result] at failed holds
    cases failed
    exact holds rfl

/-- A sequence faults in its first action or in what follows the answer. -/
theorem bind {action : Action σ α} {rest : α → Action σ β} (first : FaultsWith P action)
    (second : ∀ answer, FaultsWith P (rest answer)) : FaultsWith P (action >>= rest) := by
  intro state fault after failed
  rw [bind_apply] at failed
  cases ran : action state with
  | ok answer between =>
    rw [ran] at failed
    exact second answer between fault after failed
  | error other between =>
    rw [ran] at failed
    cases failed
    exact first state fault after ran

/-- Forgetting the answer of an action leaves its faults alone. -/
theorem discard {action : Action σ α} (spec : FaultsWith P action) :
    FaultsWith P (discard action : Action σ Unit) := by
  intro state fault after failed
  rw [discard_apply] at failed
  cases ran : action state with
  | ok answer between =>
    rw [ran] at failed
    cases failed
  | error other between =>
    rw [ran] at failed
    cases failed
    exact spec state fault after ran

/-- Of two actions that are both carried out, the fault of either may be reported. -/
theorem both {first second : Action σ Unit} (early : FaultsWith P first)
    (late : FaultsWith P second) : FaultsWith P (Action.both first second) := by
  intro state fault after failed
  unfold Action.both at failed
  cases ran : first state with
  | ok _ between =>
    rw [ran] at failed
    exact late between fault after failed
  | error other between =>
    rw [ran] at failed
    cases failed
    exact early state fault between ran

/-- An action on the left part of a state faults as on that part alone. -/
theorem onLeft {action : Action σ α} (spec : FaultsWith P action) :
    FaultsWith P (Action.onLeft action : Action (σ × τ) α) := by
  rintro ⟨left, right⟩ fault after failed
  unfold Action.onLeft at failed
  cases ran : action left with
  | ok answer between =>
    simp only [ran] at failed
    cases failed
  | error other between =>
    simp only [ran] at failed
    cases failed
    exact spec left fault between ran

/-- An action on the right part of a state faults as on that part alone. -/
theorem onRight {action : Action τ α} (spec : FaultsWith P action) :
    FaultsWith P (Action.onRight action : Action (σ × τ) α) := by
  rintro ⟨left, right⟩ fault after failed
  unfold Action.onRight at failed
  cases ran : action right with
  | ok answer between =>
    simp only [ran] at failed
    cases failed
  | error other between =>
    simp only [ran] at failed
    cases failed
    exact spec right fault between ran

end FaultsWith

end Action

open HotPath.Action

namespace Heap

/-- Looking into an array reports a dead id, or what reading the cell reports. -/
theorem inspect_ordinary {α : Type} (id : ArrayId) {read : Cell → Except Fault α}
    (ordinary : ∀ cell fault, read cell = .error fault → fault.Ordinary) :
    FaultsWith Fault.Ordinary (inspect id read) := by
  refine .ofExcept fun h fault failed => ?_
  unfold lookUp at failed
  cases found : h.find? id with
  | none =>
    rw [found] at failed
    cases failed
    simp [Fault.Ordinary, Fault.code]
  | some cell =>
    rw [found] at failed
    exact ordinary cell fault failed

/-- Taking a reference reports a dead id. -/
theorem retainValue_ordinary (value : Value) :
    FaultsWith Fault.Ordinary (retainValue value) := by
  cases value with
  | array id =>
    intro h fault after failed
    change retain id h = _ at failed
    unfold retain lookUp at failed
    cases found : h.find? id with
    | none =>
      rw [found] at failed
      cases failed
      simp [Fault.Ordinary, Fault.code]
    | some cell =>
      rw [found] at failed
      cases failed
  | _ => exact .pure ()

/-- Giving back a reference fails only if references have been counted wrongly. -/
theorem release_blames (id : ArrayId) :
    FaultsWith (fun fault => fault.blamesCounting = true) (release id) := by
  intro h fault after failed
  unfold release at failed
  repeat' split at failed
  all_goals cases failed
  all_goals rfl

/-- Giving back a value fails only if it is an array whose references have been counted wrongly. -/
theorem releaseValue_blames (value : Value) :
    FaultsWith (fun fault => fault.blamesCounting = true) (releaseValue value) := by
  cases value with
  | array id => exact (release_blames id).discard
  | _ => exact .pure ()

/-- Giving back a value faults for an ordinary reason, if it does. -/
theorem releaseValue_ordinary (value : Value) :
    FaultsWith Fault.Ordinary (releaseValue value) :=
  (releaseValue_blames value).mono fun _ => Fault.ordinary_of_blamesCounting

/-- Giving back several values reports the first that cannot be given back. -/
theorem releaseEach_ordinary (values : List Value) :
    FaultsWith Fault.Ordinary (releaseEach values) := by
  induction values with
  | nil => exact .pure ()
  | cons value rest ih => exact (releaseValue_ordinary value).both ih

/-- Copying an array out reports a dead id. -/
theorem toHost_ordinary (id : ArrayId) : FaultsWith Fault.Ordinary (toHost id) :=
  inspect_ordinary id fun _ _ failed => by cases failed

/-- The text of a value cannot be had for a dead id only. -/
theorem textOf_ordinary (value : Value) : FaultsWith Fault.Ordinary (textOf value) := by
  cases value with
  | array id => exact (toHost_ordinary id).bind fun _ => .pure _
  | _ => exact .pure _

/-- Exporting a value copies it out and gives it back. -/
theorem exportHost_ordinary (value : Value) : FaultsWith Fault.Ordinary (exportHost value) := by
  cases value with
  | array id =>
    refine (toHost_ordinary id).bind fun _ => ?_
    exact (releaseValue_ordinary (.array id)).bind fun _ => .pure _
  | _ => exact .pure _

/-- Asking for a length reports a dead id. -/
theorem length_ordinary (id : ArrayId) : FaultsWith Fault.Ordinary (length id) :=
  inspect_ordinary id fun _ _ failed => by cases failed

/-- Loading an element reports a dead id or an index that is out of bounds. -/
theorem load_ordinary (id : ArrayId) (index : Int64) :
    FaultsWith Fault.Ordinary (load id index) := by
  refine inspect_ordinary id fun cell fault failed => ?_
  split at failed <;> cases failed
  simp [Fault.Ordinary, Fault.code]

/-- Storing an element reports a dead id, an index that is out of bounds, or a value of another
type. -/
theorem store_ordinary (id : ArrayId) (index : Int64) (value : Value) :
    FaultsWith Fault.Ordinary (store id index value) := by
  intro h fault after failed
  unfold store lookUp at failed
  cases found : h.find? id with
  | none =>
    rw [found] at failed
    cases failed
    simp [Fault.Ordinary, Fault.code]
  | some cell =>
    simp only [found, bind, Except.bind] at failed
    cases stored : storePlace cell.contents index value with
    | ok place =>
      rw [stored] at failed
      cases failed
    | error other =>
      rw [stored] at failed
      cases failed
      unfold storePlace at stored
      repeat' split at stored
      all_goals cases stored
      all_goals simp [Fault.Ordinary, Fault.code, Fault.elementMismatch]

end Heap

namespace OperandStack

/-- Looking at the top operand faults only where there is none. -/
theorem peek_ordinary {s : OperandStack} {fault : Fault} (failed : s.peek = .error fault) :
    fault.Ordinary := by
  unfold peek at failed
  repeat' split at failed
  all_goals cases failed
  all_goals simp [Fault.Ordinary, Fault.code]

/-- Taking the top operand faults only where there is none. -/
theorem pop_ordinary : FaultsWith Fault.Ordinary pop := by
  intro s fault after failed
  unfold pop at failed
  cases found : s.peek with
  | ok value =>
    rw [found] at failed
    cases failed
  | error other =>
    rw [found] at failed
    cases failed
    exact peek_ordinary found

/-- A push faults only where there is no room. -/
theorem push_ordinary (value : Value) : FaultsWith Fault.Ordinary (push value) := by
  intro s fault after failed
  unfold push at failed
  split at failed <;> cases failed
  simp [Fault.Ordinary, Fault.code]

/-- A push without room reports that, or that the value cannot be given back. -/
theorem pushOrRelease_ordinary (value : Value) :
    FaultsWith Fault.Ordinary (pushOrRelease value) := by
  rintro ⟨s, h⟩ fault after failed
  unfold pushOrRelease at failed
  cases pushed : push value s with
  | ok _ s =>
    simp only [pushed] at failed
    cases failed
  | error full s =>
    simp only [pushed] at failed
    cases released : Heap.releaseValue value h with
    | ok _ h =>
      simp only [released] at failed
      cases failed
      exact push_ordinary value _ _ _ pushed
    | error other h =>
      simp only [released] at failed
      cases failed
      exact Heap.releaseValue_ordinary value _ _ _ released

/-- Doubling an operand faults where there is none, where there is no room, or on a dead array. -/
theorem dup_ordinary : FaultsWith Fault.Ordinary dup :=
  (FaultsWith.ofExcept fun _ _ => peek_ordinary).onLeft.bind fun value =>
    (push_ordinary value).onLeft.bind fun _ => (Heap.retainValue_ordinary value).onRight

/-- Dropping an operand faults where there is none, or where it cannot be given back. -/
theorem drop_ordinary : FaultsWith Fault.Ordinary drop :=
  pop_ordinary.onLeft.bind fun value => (Heap.releaseValue_ordinary value).onRight

/-- Cutting the operands off at a height reports the first that cannot be given back. -/
theorem truncate_ordinary (height : Nat) : FaultsWith Fault.Ordinary (truncate height) := by
  rintro ⟨s, h⟩ fault after failed
  have given : FaultsWith Fault.Ordinary
      (onRight (Heap.releaseEach (s.above height)) : Action (OperandStack × Heap) Unit) :=
    (Heap.releaseEach_ordinary (s.above height)).onRight
  exact given ({ s with entries := s.entries.shrink height, base := min s.base height }, h)
    fault after failed

end OperandStack

namespace Locals

/-- Reading a slot faults only where there is none. -/
theorem get_ordinary {l : Locals} {index : Nat} {fault : Fault}
    (failed : l.get index = .error fault) : fault.Ordinary := by
  unfold get at failed
  split at failed <;> cases failed
  simp [Fault.Ordinary, Fault.code, missing]

/-- Reading an integer slot faults where there is no slot, or no integer in it. -/
theorem getInt_ordinary {l : Locals} {index : Nat} {fault : Fault}
    (failed : l.getInt index = .error fault) : fault.Ordinary := by
  unfold getInt at failed
  cases found : l.get index with
  | error other =>
    rw [found] at failed
    cases failed
    exact get_ordinary found
  | ok value =>
    simp only [found, bind, Except.bind] at failed
    split at failed <;> cases failed
    simp [Fault.Ordinary, Fault.code]

/-- Loading a slot faults where there is none, or where it holds a dead array. -/
theorem load_ordinary (index : Nat) : FaultsWith Fault.Ordinary (load index) :=
  (FaultsWith.ofExcept fun _ _ => get_ordinary).onLeft.bind fun value =>
    (Heap.retainValue_ordinary value).onRight.bind fun _ => .pure value

/-- Writing a slot faults where there is none, or where a value cannot be given back. -/
theorem store_ordinary (index : Nat) (value : Value) :
    FaultsWith Fault.Ordinary (store index value) := by
  rintro ⟨l, h⟩ fault after failed
  unfold store at failed
  cases found : l.slots[index]? with
  | some previous =>
    simp only [found] at failed
    exact (Heap.releaseValue_ordinary previous).onRight _ fault after failed
  | none =>
    simp only [found] at failed
    cases released : Heap.releaseValue value h with
    | ok _ h =>
      simp only [released] at failed
      cases failed
      simp [Fault.Ordinary, Fault.code, missing]
    | error other h =>
      simp only [released] at failed
      cases failed
      exact Heap.releaseValue_ordinary value _ _ _ released

/-- Changing an integer slot faults only where reading it does. -/
theorem setInt_ordinary (index : Nat) (n : Int64) :
    FaultsWith Fault.Ordinary (setInt index n) := by
  intro l fault after failed
  unfold setInt at failed
  cases found : l.getInt index with
  | ok _ =>
    rw [found] at failed
    cases failed
  | error other =>
    rw [found] at failed
    cases failed
    exact getInt_ordinary found

end Locals

namespace Machine

/-- An action on the operands that does not depend on how many there may be. -/
def Unbounded {α : Type} (action : Action (OperandStack × Heap) α) : Prop :=
  ∀ (stack : OperandStack) (heap : Heap) (limit : Nat),
    action ({ stack with limit }, heap) =
      match action (stack, heap) with
      | .ok answer (stack, heap) => .ok answer ({ stack with limit }, heap)
      | .error fault (stack, heap) => .error fault ({ stack with limit }, heap)

/-- A sequence of parts of instructions. -/
inductive Composed : (strikes : Fault → Prop) → {α : Type} → Action Machine α → Prop where
  | pure {strikes : Fault → Prop} {α : Type} (answer : α) :
    Composed strikes (Pure.pure answer : Action Machine α)
  | throw {strikes : Fault → Prop} {α : Type} {fault : Fault} (ordinary : fault.Ordinary) :
    Composed strikes (MonadExcept.throw fault : Action Machine α)
  | bind {strikes : Fault → Prop} {α β : Type} {first : Action Machine α}
    {rest : α → Action Machine β} (early : Composed strikes first)
    (late : ∀ answer, Composed strikes (rest answer)) : Composed strikes (first >>= rest)
  /-- The fault of an action that strikes no limit is held back. -/
  | attempt {strikes : Fault → Prop} {α β : Type} {first : Action Machine α}
    {rest : Except Fault α → Action Machine β} (early : Composed (fun _ => False) first)
    (answered : ∀ answer, Composed strikes (rest (.ok answer)))
    (faulted : ∀ fault, fault.Ordinary → Composed strikes (rest (.error fault))) :
    Composed strikes (Action.attempt first >>= rest)
  /-- Neither of the two strikes a limit, so each does the same whatever the other one did. -/
  | both {strikes : Fault → Prop} {first second : Action Machine Unit}
    (early : Composed (fun _ => False) first) (late : Composed (fun _ => False) second) :
    Composed strikes (Action.both first second)
  | onHeap {strikes : Fault → Prop} {α : Type} {action : Action Heap α}
    (ordinary : FaultsWith Fault.Ordinary action) : Composed strikes (onHeap action)
  | onLocals {strikes : Fault → Prop} {α : Type} {action : Action (Locals × Heap) α}
    (ordinary : FaultsWith Fault.Ordinary action) : Composed strikes (onLocals action)
  | onStack {strikes : Fault → Prop} {α : Type} {action : Action (OperandStack × Heap) α}
    (ordinary : FaultsWith Fault.Ordinary action) (unbounded : Unbounded action) :
    Composed strikes (onStack action)
  | push {strikes : Fault → Prop} (full : ∀ fault : Fault, fault.Crowded → strikes fault)
    (value : Value) : Composed strikes (push value)
  | dup {strikes : Fault → Prop} (full : ∀ fault : Fault, fault.Crowded → strikes fault) :
    Composed strikes (onStack OperandStack.dup)
  | measure {strikes : Fault → Prop} (long : ∀ fault : Fault, fault.Oversized → strikes fault)
    (requested : Int64) :
    Composed strikes (Action.ofExcept fun m => arrayLength m.limits.arrayLength requested)
  | printLine {strikes : Fault → Prop} (line : String) : Composed strikes (printLine line)
  | goto {strikes : Fault → Prop} (address : Nat) : Composed strikes (goto address)
  | popFrame {strikes : Fault → Prop} : Composed strikes popFrame
  | resumeCaller {strikes : Fault → Prop} (frame : Frame) : Composed strikes (resumeCaller frame)

section Parts

/-- What happens on the heap has no bound on the operands to depend on. -/
theorem unbounded_onRight {α : Type} (action : Action Heap α) : Unbounded (onRight action) := by
  intro stack heap limit
  cases ran : action heap <;> simp only [onRight, ran]

/-- A sequence does not depend on the bound if none of its actions does. -/
theorem Unbounded.bind {α β : Type} {first : Action (OperandStack × Heap) α}
    {rest : α → Action (OperandStack × Heap) β} (early : Unbounded first)
    (late : ∀ answer, Unbounded (rest answer)) : Unbounded (first >>= rest) := by
  intro stack heap limit
  rw [bind_apply, bind_apply, early stack heap limit]
  cases first (stack, heap) with
  | ok answer between => exact late answer between.1 between.2 limit
  | error fault between => rfl

/-- Looking at the top operand takes no room. -/
theorem unbounded_peek : Unbounded (onLeft (Action.ofExcept OperandStack.peek)) := by
  intro stack heap limit
  have same : ({ stack with limit } : OperandStack).peek = stack.peek := rfl
  unfold onLeft Action.ofExcept
  dsimp only
  rw [same]
  cases stack.peek <;> rfl

/-- Taking the top operand takes no room. -/
theorem unbounded_pop : Unbounded (onLeft OperandStack.pop) := by
  intro stack heap limit
  have same : ({ stack with limit } : OperandStack).peek = stack.peek := rfl
  unfold onLeft OperandStack.pop
  dsimp only
  rw [same]
  cases stack.peek <;> rfl

/-- Dropping the top operand takes no room. -/
theorem unbounded_drop : Unbounded OperandStack.drop :=
  unbounded_pop.bind fun _ => unbounded_onRight _

/-- Cutting the operands off at a height takes no room. -/
theorem unbounded_truncate (height : Nat) : Unbounded (OperandStack.truncate height) := by
  intro stack heap limit
  exact unbounded_onRight (Heap.releaseEach (stack.above height))
    { stack with entries := stack.entries.shrink height, base := min stack.base height } heap limit

end Parts

namespace Composed

variable {strikes : Fault → Prop}

/-- An answer that has been worked out before is given, or its fault is reported. -/
theorem settle {α : Type} {answer : Except Fault α}
    (ordinary : ∀ fault, answer = .error fault → fault.Ordinary) :
    Composed strikes (Action.settle answer) := by
  cases answer with
  | ok answer => exact .pure answer
  | error fault => exact .throw (ordinary fault rfl)

/-- What is worked out first and asked for later, after something else. -/
theorem postponed {α β : Type} {first : Action Machine α} {between : Action Machine Unit}
    {rest : α → Action Machine β} (early : Composed (fun _ => False) first)
    (middle : Composed strikes between) (late : ∀ answer, Composed strikes (rest answer)) :
    Composed strikes (do
      let answer ← Action.attempt first
      between
      rest (← Action.settle answer)) := by
  refine .attempt early (fun answer => ?_) (fun fault ordinary => ?_)
  · exact middle.bind fun _ => late answer
  · exact middle.bind fun _ => (Composed.throw ordinary).bind late

/-- Taking an operand is a part. -/
theorem pop : Composed strikes pop := .onStack OperandStack.pop_ordinary.onLeft unbounded_pop

/-- Looking at the top operand is a part. -/
theorem peek : Composed strikes peek :=
  .onStack (FaultsWith.ofExcept fun _ _ => OperandStack.peek_ordinary).onLeft unbounded_peek

/-- Giving back a value is a part. -/
theorem release (value : Value) : Composed strikes (release value) :=
  .onHeap (Heap.releaseValue_ordinary value)

/-- An operand of the wrong shape is taken and given back before that is reported. -/
theorem popAs {α : Type} (expected : Shape) (read? : Value → Option α) :
    Composed strikes (popAs expected read?) := by
  refine pop.bind fun value => ?_
  cases read? value with
  | some inner => exact .pure inner
  | none => exact (release value).bind fun _ => .throw (by simp [Fault.Ordinary, Fault.code])

/-- A divisor is looked at, and left where it is. -/
theorem requireDivisor (isZero : Value → Bool) : Composed strikes (requireDivisor isZero) := by
  refine peek.bind fun divisor => ?_
  split
  next => exact .throw (by simp [Fault.Ordinary, Fault.code])
  next => exact .pure _

/-- What is printed has been given back before the line appears. -/
theorem print : Composed strikes print :=
  pop.bind fun value =>
    postponed (.onHeap (Heap.textOf_ordinary value)) (release value) fun line => .printLine line

/-- A slot is read and written with nothing in between. -/
theorem addToLocal (index : Nat) (amount : Int64) : Composed strikes (addToLocal index amount) :=
  (Composed.onLocals (FaultsWith.ofExcept fun _ _ => Locals.getInt_ordinary).onLeft).bind
    fun _ => .onLocals (Locals.setInt_ordinary index _).onLeft

/-- The array that is stored into is given back, whether or not the store succeeds. -/
theorem storeElement (value : Value) : Composed strikes (storeElement value) := by
  refine (popAs _ _).bind fun index => (popAs _ _).bind fun id => ?_
  refine .attempt (.onHeap (Heap.store_ordinary id index value)) (fun _ => ?_)
    fun fault ordinary => ?_
  · exact (release (.array id)).bind fun _ => .pure _
  · exact (release (.array id)).bind fun _ => .throw ordinary

/-- A value that cannot be stored is given back before that is reported. -/
theorem arrayStore : Composed strikes arrayStore := by
  refine pop.bind fun value => ?_
  refine .attempt (storeElement value) (fun _ => ?_) fun fault ordinary => ?_
  · exact .pure _
  · exact (release value).bind fun _ => .throw ordinary

/-- An operation after which control goes to the instruction that follows. -/
theorem next {operation : Action Machine Unit} (spec : Composed strikes operation) :
    Composed strikes (do operation; return Transfer.next) :=
  spec.bind fun _ => .pure _

/-- A jump that is conditional takes a boolean. -/
theorem takes (condition : Condition) : Composed strikes (takes condition) := by
  cases condition with
  | always => exact .pure _
  | when expected => exact (popAs _ _).bind fun b => .pure _

section Pushing

variable (full : ∀ fault : Fault, fault.Crowded → strikes fault)

include full

/-- Two integers are taken, the right one first, and the result is pushed. -/
theorem intBinary (result : Int64 → Int64 → Value) : Composed strikes (intBinary result) :=
  (popAs _ _).bind fun b => (popAs _ _).bind fun a => .push full (result a b)

/-- Two floats are taken, the right one first, and the result is pushed. -/
theorem floatBinary (result : Double → Double → Value) : Composed strikes (floatBinary result) :=
  (popAs _ _).bind fun b => (popAs _ _).bind fun a => .push full (result a b)

/-- A constant is pushed, if there is one at the index. -/
theorem pushConstant {α : Type} (table : Array α) (index : Nat) (value : α → Value) :
    Composed strikes (pushConstant table index value) := by
  unfold Machine.pushConstant
  split
  next constant _ => exact .push full _
  next => exact .throw (by simp [Fault.Ordinary, Fault.code])

/-- A length is taken and held against the limit, and a new array of it is pushed. -/
theorem newArray (long : ∀ fault : Fault, fault.Oversized → strikes fault) (tag : Nat) :
    Composed strikes (newArray tag) := by
  unfold Machine.newArray
  split
  next => exact .throw (by simp [Fault.Ordinary, Fault.code, Fault.unknownElementTag])
  next type _ =>
    refine (popAs _ _).bind fun requested => ?_
    refine (Composed.measure long requested).bind fun _ => ?_
    refine (Composed.onHeap ?_).bind fun id => .push full (.array id)
    intro h fault after failed
    cases failed

/-- The array that is loaded from is given back before the element is pushed. -/
theorem arrayLoad : Composed strikes arrayLoad :=
  (popAs _ _).bind fun index => (popAs _ _).bind fun id =>
    postponed (.onHeap (Heap.load_ordinary id index)) (release (.array id)) fun value =>
      .push full value

/-- The array is given back before its length is pushed. -/
theorem pushLength : Composed strikes pushLength :=
  (popAs _ _).bind fun id =>
    postponed (.onHeap (Heap.length_ordinary id)) (release (.array id)) fun _ => .push full _

/-- The caller gets the value as an operand, and without a caller it is the answer of the call. -/
theorem handOver (frame : Frame) (value : Option Value) :
    Composed strikes (handOver frame value) := by
  refine (Composed.resumeCaller frame).bind fun called => ?_
  cases called with
  | false => exact .pure _
  | true =>
    cases value with
    | none => exact .pure _
    | some value => exact (Composed.push full value).bind fun _ => .pure _

end Pushing

end Composed

/-- The faults by which an instruction may report a limit. -/
def Strikes (i : Instruction) (fault : Fault) : Prop :=
  fault.Crowded ∨ i.opcode = .newArray ∧ fault.Oversized

/-- An instruction that does not lead out of its function is composed of parts. -/
theorem perform_composed (p : Program) {i : Instruction} {address length : Nat}
    (inside : i.opcode.isJump = true → ∃ target, jumpTarget i address length = .ok target) :
    Composed (Strikes i) (perform p i address length) := by
  have full (fault : Fault) (crowded : fault.Crowded) : Strikes i fault := .inl crowded
  unfold perform
  cases opcode : i.opcode with
  | nop => exact .pure _
  | pop => exact .next (.onStack OperandStack.drop_ordinary unbounded_drop)
  | dup => exact .next (.dup full)
  | print => exact .next .print
  | pushInt => exact .next (.pushConstant full _ _ _)
  | pushFloat => exact .next (.pushConstant full _ _ _)
  | pushBool b => exact .next (.push full _)
  | loadLocal =>
    exact (Composed.onLocals (Locals.load_ordinary _)).bind fun value => .next (.push full value)
  | storeLocal =>
    exact Composed.pop.bind fun value => .next (.onLocals (Locals.store_ordinary _ value))
  | stepLocal direction => exact .next (.addToLocal _ _)
  | intBinary operation =>
    dsimp only
    split
    next => exact (Composed.requireDivisor _).bind fun _ => .next (.intBinary full _)
    next => exact .next (.intBinary full _)
  | negInt => exact (Composed.popAs _ _).bind fun n => .next (.push full _)
  | floatBinary operation =>
    dsimp only
    split
    next => exact (Composed.requireDivisor _).bind fun _ => .next (.floatBinary full _)
    next => exact .next (.floatBinary full _)
  | negFloat => exact (Composed.popAs _ _).bind fun x => .next (.push full _)
  | intToFloat => exact (Composed.popAs _ _).bind fun n => .next (.push full _)
  | floatToInt => exact (Composed.popAs _ _).bind fun x => .next (.push full _)
  | not => exact (Composed.popAs _ _).bind fun b => .next (.push full _)
  | compareInt comparison => exact .next (.intBinary full _)
  | compareFloat comparison => exact .next (.floatBinary full _)
  | jump condition =>
    obtain ⟨target, leads⟩ := inside (by rw [opcode]; rfl)
    dsimp only
    rw [leads, jump_eq]
    exact (Composed.takes condition).bind fun _ => .pure _
  | newArray => exact .next (.newArray full (fun _ oversized => .inr ⟨opcode, oversized⟩) _)
  | arrayLoad => exact .next (.arrayLoad full)
  | arrayStore => exact .next .arrayStore
  | arrayLength => exact .next (.pushLength full)
  | call => exact .pure _
  | ret => exact Composed.pop.bind fun value => .pure _
  | retVoid => exact .pure _

section Control

variable {strikes : Fault → Prop} (full : ∀ fault : Fault, fault.Crowded → strikes fault)

include full

/-- Leaving a frame is composed of parts. -/
theorem leave_composed (value : Option Value) : Composed strikes (leave value) := by
  have given (frame : Frame) : Composed (fun _ => False)
      (both (onHeap (Heap.releaseEach frame.locals.slots.toList))
        (onStack (OperandStack.truncate frame.base))) :=
    .both (.onHeap (Heap.releaseEach_ordinary _))
      (.onStack (OperandStack.truncate_ordinary _) (unbounded_truncate _))
  refine Composed.popFrame.bind fun frame => ?_
  refine .attempt (given frame) (fun _ => .handOver full frame value) fun fault ordinary => ?_
  cases value with
  | none => exact .throw ordinary
  | some value => exact (Composed.release value).bind fun _ => .throw ordinary

/-- Handing control over is composed of parts. -/
theorem proceed_composed (p : Program) (address : Nat) (transfer : Transfer) :
    Composed strikes (proceed p address transfer) := by
  unfold proceed
  cases transfer with
  | next => exact (Composed.goto (address + 1)).bind fun _ => .pure _
  | goto target => exact (Composed.goto target).bind fun _ => .pure _
  | leave value => exact leave_composed full value
  | call index =>
    dsimp only
    split
    next => exact .pure _
    next => exact .throw (by simp [Fault.Ordinary, Fault.code])

end Control

section Faults

variable {α : Type}

/-- An action on the heap faults in a machine as it does on the heap. -/
theorem onHeap_faultsWith {P : Fault → Prop} {action : Action Heap α}
    (spec : FaultsWith P action) : FaultsWith P (onHeap action) := by
  rintro ⟨limits, heap, stack, calls, output, counts⟩ fault after failed
  unfold onHeap at failed
  cases ran : action heap with
  | ok answer between =>
    simp only [ran] at failed
    cases failed
  | error other between =>
    simp only [ran] at failed
    cases failed
    exact spec heap fault between ran

/-- An action on the operands faults in a machine as it does on them and the heap. -/
theorem onStack_faultsWith {P : Fault → Prop} {action : Action (OperandStack × Heap) α}
    (spec : FaultsWith P action) : FaultsWith P (onStack action) := by
  rintro ⟨limits, heap, stack, calls, output, counts⟩ fault after failed
  unfold onStack at failed
  cases ran : action (stack, heap) with
  | ok answer between =>
    simp only [ran] at failed
    cases failed
  | error other between =>
    simp only [ran] at failed
    cases failed
    exact spec (stack, heap) fault between ran

/-- Without a frame there are no slots, which is reported as a missing operand. -/
theorem onLocals_faultsWith {action : Action (Locals × Heap) α}
    (spec : FaultsWith Fault.Ordinary action) : FaultsWith Fault.Ordinary (onLocals action) := by
  rintro ⟨limits, heap, stack, calls, output, counts⟩ fault after failed
  unfold onLocals at failed
  obtain rfl | ⟨frame, callers, rfl⟩ := calls.eq_empty_or_push
  · cases failed
    simp [Fault.Ordinary, Fault.code]
  · cases ran : action (frame.locals, heap) with
    | ok answer between =>
      simp only [CallStack.pop?_push, ran] at failed
      cases failed
    | error other between =>
      simp only [CallStack.pop?_push, ran] at failed
      cases failed
      exact spec _ fault between ran

/-- When a fault is held back, what follows may fault, or report it again. -/
theorem attempt_faultsWith {β : Type} {P : Fault → Prop} {first : Action Machine α}
    {rest : Except Fault α → Action Machine β} (early : FaultsWith P first)
    (answered : ∀ answer, FaultsWith P (rest (.ok answer)))
    (faulted : ∀ fault, P fault → FaultsWith P (rest (.error fault))) :
    FaultsWith P (Action.attempt first >>= rest) := by
  intro m fault after failed
  rw [bind_apply] at failed
  unfold Action.attempt at failed
  cases ran : first m with
  | ok answer between =>
    rw [ran] at failed
    exact answered answer between fault after failed
  | error other between =>
    rw [ran] at failed
    exact faulted other (early m other between ran) between fault after failed

/-- Whatever is composed of parts faults for an ordinary reason, if it does. -/
theorem Composed.ordinary {strikes : Fault → Prop} {action : Action Machine α}
    (composed : Composed strikes action) : FaultsWith Fault.Ordinary action := by
  induction composed with
  | pure answer => exact .pure answer
  | throw ordinary => exact .throw ordinary
  | bind early late first second => exact first.bind second
  | attempt early answered faulted first second third =>
    exact attempt_faultsWith first second third
  | both early late first second => exact first.both second
  | onHeap ordinary => exact onHeap_faultsWith ordinary
  | onLocals ordinary => exact onLocals_faultsWith ordinary
  | onStack ordinary unbounded => exact onStack_faultsWith ordinary
  | push full value => exact onStack_faultsWith (OperandStack.pushOrRelease_ordinary value)
  | dup full => exact onStack_faultsWith OperandStack.dup_ordinary
  | measure long requested =>
    refine .ofExcept fun m fault failed => ?_
    unfold arrayLength at failed
    repeat' split at failed
    all_goals cases failed
    all_goals simp [Fault.Ordinary, Fault.code]
  | printLine line =>
    intro m fault after failed
    cases failed
  | goto address | popFrame | resumeCaller frame =>
    rintro ⟨limits, heap, stack, calls, output, counts⟩ fault after failed
    obtain rfl | ⟨frame, callers, rfl⟩ := calls.eq_empty_or_push
    · cases failed
      all_goals simp [Fault.Ordinary, Fault.code]
    · cases failed

end Faults

end Machine

end HotPath
