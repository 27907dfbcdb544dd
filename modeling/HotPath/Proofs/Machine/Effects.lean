import HotPath.Proofs.Machine.Evaluation
import HotPath.Proofs.Store.Changes
import HotPath.Proofs.Store.Numbering

/-!
# What one instruction can do

Apart from calls and returns, an instruction has elementary effects only: a change of the
heap, an operand pushed where there is room, an own operand popped, a slot overwritten, a
line printed. `perform_takes` says so for all of them, and `Core.Follows` draws the
conclusions that hold after any number of effects: the operands below the base are as
they were, the base and the limits stay, the stack does not outgrow its limit.

`advance_cases` lists everything that one instruction can lead to, control included.
-/

namespace HotPath

open Relation

namespace Action.Takes

variable {σ τ α β : Type}

/-- An action that runs on a part of its state brings about what it brings about there. -/
theorem embed {Part : τ → τ → Prop} {Change : σ → σ → Prop} {action : Action τ α}
    (spec : Takes Part action) {whole : Action σ β} (put : τ → σ) (part : τ)
    (same : whole.after (put part) = put (action.after part))
    (each : ∀ before after, Part before after → Change (put before) (put after)) :
    ReflTransGen Change (put part) (whole.after (put part)) := by
  rw [same]
  exact ReflTransGen.lift put each part (action.after part) (spec part)

variable {Change : σ × τ → σ × τ → Prop}

/-- Reading the left part of a state changes nothing. -/
theorem onLeft_ofExcept (read : σ → Except Fault α) :
    Takes Change (onLeft (Action.ofExcept read)) := by
  rintro ⟨left, right⟩
  unfold Action.after onLeft Action.ofExcept
  dsimp only
  cases read left <;> exact .refl

/-- An action on the right part brings about what it does there, beside any left part. -/
theorem onRight {Part : τ → τ → Prop} {action : Action τ α} (spec : Takes Part action)
    (lifts : ∀ left before after, Part before after → Change (left, before) (left, after)) :
    Takes Change (Action.onRight action) := by
  rintro ⟨left, right⟩
  refine spec.embed (fun state => (left, state)) right ?_ (lifts left)
  simp only [Action.after, Action.onRight]
  cases action right <;> rfl

end Action.Takes

namespace OperandStack

open HotPath.Action

/-- An elementary change of the operands and the heap. -/
inductive Change : OperandStack × Heap → OperandStack × Heap → Prop where
  | heap (s : OperandStack) {h after : Heap} (changed : h.Change after) :
    Change (s, h) (s, after)
  | pushed {s : OperandStack} (h : Heap) (room : s.entries.size < s.limit) (value : Value) :
    Change (s, h) ({ s with entries := s.entries.push value }, h)
  | popped {s : OperandStack} (h : Heap) (own : s.base < s.entries.size) :
    Change (s, h) ({ s with entries := s.entries.pop }, h)

/-- Beside the operands, the heap changes as it does alone. -/
theorem onRight_takes {α : Type} {action : Action Heap α} (spec : Takes Heap.Change action) :
    Takes Change (onRight action) :=
  spec.onRight fun s _ _ changed => .heap s changed

/-- A push puts one value on top, or there is no room for it. -/
theorem push_takes (value : Value) : Takes Change (onLeft (push value)) := by
  rintro ⟨s, h⟩
  unfold Action.after onLeft push
  dsimp only
  by_cases room : s.entries.size < s.limit
  · rw [if_pos room]
    exact .single (.pushed h room value)
  · rw [if_neg room]

/-- A pop takes an operand of the call's own, or there is none. -/
theorem pop_takes : Takes Change (onLeft pop) := by
  rintro ⟨s, h⟩
  unfold Action.after onLeft pop
  dsimp only
  cases found : s.peek with
  | ok value => exact .single (.popped h (Machine.base_lt_of_peek found))
  | error fault => exact .refl

/-- A push that finds no room gives the value back, which changes the heap only. -/
theorem pushOrRelease_takes (value : Value) : Takes Change (pushOrRelease value) := by
  rintro ⟨s, h⟩
  have released := onRight_takes (Heap.releaseValue_takes value) (s, h)
  by_cases room : s.entries.size < s.limit
  · simp only [Action.after, pushOrRelease, push, room, if_true]
    exact .single (.pushed h room value)
  · simp only [Action.after, onRight, pushOrRelease, push, room, if_false] at released ⊢
    cases ran : Heap.releaseValue value h <;> simp only [ran] at released ⊢ <;> exact released

/-- Doubling an operand is a push of it, and one more reference. -/
theorem dup_takes : Takes Change dup :=
  (Takes.onLeft_ofExcept _).bind fun value => (push_takes value).bind fun _ =>
    onRight_takes (Heap.retainValue_takes value)

/-- Dropping an operand is a pop of it, and one reference less. -/
theorem drop_takes : Takes Change drop :=
  pop_takes.bind fun value => onRight_takes (Heap.releaseValue_takes value)

end OperandStack

namespace Locals

open HotPath.Action

/-- An elementary change of the slots of a call and the heap. -/
inductive Change : Locals × Heap → Locals × Heap → Prop where
  | heap (l : Locals) {h after : Heap} (changed : h.Change after) : Change (l, h) (l, after)
  | written (l : Locals) (h : Heap) (index : Nat) (value : Value) :
    Change (l, h) (l.put index value, h)

/-- Beside the slots, the heap changes as it does alone. -/
theorem onRight_takes {α : Type} {action : Action Heap α} (spec : Takes Heap.Change action) :
    Takes Change (onRight action) :=
  spec.onRight fun l _ _ changed => .heap l changed

/-- Loading a slot takes one more reference, and leaves the slots alone. -/
theorem load_takes (index : Nat) : Takes Change (load index) :=
  (Takes.onLeft_ofExcept _).bind fun value =>
    (onRight_takes (Heap.retainValue_takes value)).bind fun _ => .pure value

/-- Storing writes the slot and then gives the previous value back, or gives back the value that
there is no slot for. -/
theorem store_takes (index : Nat) (value : Value) : Takes Change (store index value) := by
  rintro ⟨l, h⟩
  unfold Action.after store
  dsimp only
  cases found : l.slots[index]? with
  | some previous =>
    have released := onRight_takes (Heap.releaseValue_takes previous) (l.put index value, h)
    exact .head (.written l h index value) released
  | none =>
    have released := onRight_takes (Heap.releaseValue_takes value) (l, h)
    simp only [Action.after, onRight] at released ⊢
    cases ran : Heap.releaseValue value h <;> simp only [ran] at released ⊢ <;> exact released

/-- Changing an integer slot writes it, if it can be read. -/
theorem setInt_takes (index : Nat) (n : Int64) : Takes Change (onLeft (setInt index n)) := by
  rintro ⟨l, h⟩
  unfold Action.after onLeft setInt
  dsimp only
  cases l.getInt index with
  | ok _ => exact .single (.written l h index (.int n))
  | error fault => exact .refl

end Locals

namespace Machine

open HotPath.Action

/-- An elementary effect on a machine. It concerns the innermost call only. -/
inductive Effect (m : Machine) : Machine → Prop where
  | operands {stack : OperandStack} {heap : Heap}
    (changed : OperandStack.Change (m.stack, m.heap) (stack, heap)) :
    Effect m { m with stack, heap }
  | slots {frame : Frame} {callers : CallStack} {locals : Locals} {heap : Heap}
    (running : m.calls = callers.push frame)
    (changed : Locals.Change (frame.locals, m.heap) (locals, heap)) :
    Effect m { m with heap, calls := callers.push { frame with locals } }
  | printed (line : String) : Effect m { m with output := m.output.push line }

section Parts

variable {α : Type}

/-- An action on the heap has the effects of its changes there. -/
theorem onHeap_takes {action : Action Heap α} (spec : Takes Heap.Change action) :
    Takes Effect (onHeap action) := by
  intro m
  let put (heap : Heap) : Machine := { m with heap }
  have same : (onHeap action).after m = put (action.after m.heap) := by
    simp only [Action.after, onHeap]
    cases action m.heap <;> rfl
  exact spec.embed put m.heap same fun _ _ changed => Effect.operands (.heap m.stack changed)

/-- An action on the operands has the effects of its changes there. -/
theorem onStack_takes {action : Action (OperandStack × Heap) α}
    (spec : Takes OperandStack.Change action) : Takes Effect (onStack action) := by
  intro m
  let put (parts : OperandStack × Heap) : Machine := { m with stack := parts.1, heap := parts.2 }
  have same : (onStack action).after m = put (action.after (m.stack, m.heap)) := by
    simp only [Action.after, onStack]
    cases action (m.stack, m.heap) <;> rfl
  exact spec.embed put (m.stack, m.heap) same fun _ _ changed => Effect.operands changed

/-- An action on the slots concerns those of the innermost call, and without a call it does
nothing. -/
theorem onLocals_takes {action : Action (Locals × Heap) α} (spec : Takes Locals.Change action) :
    Takes Effect (onLocals action) := by
  rintro ⟨limits, h, stack, calls, output, counts⟩
  obtain rfl | ⟨frame, callers, rfl⟩ := calls.eq_empty_or_push
  · exact .refl
  let put (parts : Locals × Heap) : Machine :=
    ⟨limits, parts.2, stack, callers.push { frame with locals := parts.1 }, output, counts⟩
  have same : (onLocals action).after (put (frame.locals, h)) =
      put (action.after (frame.locals, h)) := by
    simp only [Action.after, onLocals, put, CallStack.pop?_push]
    cases action (frame.locals, h) <;> rfl
  exact spec.embed put (frame.locals, h) same fun before _ changed =>
    @Effect.slots (put before) { frame with locals := before.1 } callers _ _ rfl changed

end Parts

section Operations

/-- A push has an effect on the operands and the heap. -/
theorem push_takes (value : Value) : Takes Effect (push value) :=
  onStack_takes (OperandStack.pushOrRelease_takes value)

/-- A pop has an effect on the operands. -/
theorem pop_takes : Takes Effect pop := onStack_takes OperandStack.pop_takes

/-- Looking at the top operand has no effect. -/
theorem peek_takes : Takes Effect peek := onStack_takes (.onLeft_ofExcept _)

/-- Giving a value back has an effect on the heap. -/
theorem release_takes (value : Value) : Takes Effect (release value) :=
  onHeap_takes (Heap.releaseValue_takes value)

/-- Printing adds a line to the output. -/
theorem printLine_takes (line : String) : Takes Effect (printLine line) :=
  fun _ => .single (.printed line)

/-- Popping a value of some shape is a pop, after which a value of another shape is given back. -/
theorem popAs_takes {α : Type} (expected : Shape) (read? : Value → Option α) :
    Takes Effect (popAs expected read?) := by
  refine pop_takes.bind fun value => ?_
  cases read? value with
  | some inner => exact .pure inner
  | none => exact (release_takes value).bind fun _ => .throw _

/-- Popping an integer has such effects. -/
theorem popInt_takes : Takes Effect popInt := popAs_takes _ _

/-- Popping a float has such effects. -/
theorem popFloat_takes : Takes Effect popFloat := popAs_takes _ _

/-- Popping a boolean has such effects. -/
theorem popBool_takes : Takes Effect popBool := popAs_takes _ _

/-- Popping an array has such effects. -/
theorem popArray_takes : Takes Effect popArray := popAs_takes _ _

/-- A divisor is looked at, which has no effect. -/
theorem requireDivisor_takes (isZero : Value → Bool) : Takes Effect (requireDivisor isZero) := by
  refine peek_takes.bind fun divisor => ?_
  split
  next => exact .throw _
  next => exact .pure _

/-- An operation on two integers is two pops and a push. -/
theorem intBinary_takes (result : Int64 → Int64 → Value) : Takes Effect (intBinary result) :=
  popInt_takes.bind fun b => popInt_takes.bind fun a => push_takes (result a b)

/-- An operation on two floats is two pops and a push. -/
theorem floatBinary_takes (result : Double → Double → Value) :
    Takes Effect (floatBinary result) :=
  popFloat_takes.bind fun b => popFloat_takes.bind fun a => push_takes (result a b)

/-- Pushing a constant is a push, if the table has it. -/
theorem pushConstant_takes {α : Type} (table : Array α) (index : Nat) (value : α → Value) :
    Takes Effect (pushConstant table index value) := by
  unfold pushConstant
  split
  next constant _ => exact push_takes _
  next => exact .throw _

/-- Printing a value is a pop, the end of a reference and a line of output. -/
theorem print_takes : Takes Effect print := by
  refine pop_takes.bind fun value => ?_
  refine (onHeap_takes (Heap.textOf_takes value)).attempt.bind fun line => ?_
  refine (release_takes value).bind fun _ => ?_
  exact (Takes.settle line).bind fun text => printLine_takes text

/-- Stepping a slot has an effect on that slot. -/
theorem addToLocal_takes (index : Nat) (amount : Int64) : Takes Effect (addToLocal index amount) :=
  (onLocals_takes (.onLeft_ofExcept _)).bind fun _ =>
    onLocals_takes (Locals.setInt_takes _ _)

/-- Putting an array on the heap is one change of it, whatever its id keeps. -/
theorem allocate_takes [Numbering] (contents : Elements) :
    Takes Heap.Change fun h => let (id, h) := h.allocate contents; .ok id h := by
  intro h
  have same := h.allocate_heap contents
  change h.Evolves (h.allocate contents).2
  rw [same]
  exact .single (.allocated contents)

/-- Making an array is a pop, one change of the heap, and a push. -/
theorem newArray_takes [Numbering] (tag : Nat) : Takes Effect (newArray tag) := by
  unfold newArray
  split
  next => exact .throw _
  next type _ =>
    refine popInt_takes.bind fun requested => (Takes.ofExcept _).bind fun length => ?_
    exact (onHeap_takes (allocate_takes _)).bind fun id => push_takes (.array id)

/-- Loading an element is two pops, changes of the heap, and a push. -/
theorem arrayLoad_takes : Takes Effect arrayLoad := by
  refine popInt_takes.bind fun index => popArray_takes.bind fun id => ?_
  refine (onHeap_takes (Heap.inspect_takes id _)).attempt.bind fun element => ?_
  refine (release_takes (.array id)).bind fun _ => ?_
  exact (Takes.settle element).bind fun value => push_takes value

/-- Storing an element is two pops and changes of the heap. -/
theorem storeElement_takes (value : Value) : Takes Effect (storeElement value) := by
  refine popInt_takes.bind fun index => popArray_takes.bind fun id => ?_
  refine (onHeap_takes (Heap.store_takes id index value)).attempt.bind fun stored => ?_
  exact (release_takes (.array id)).bind fun _ => .settle stored

/-- A value that cannot be stored is given back, which is one more change of the heap. -/
theorem arrayStore_takes : Takes Effect arrayStore := by
  refine pop_takes.bind fun value => ?_
  refine (storeElement_takes value).attempt.bind fun stored => ?_
  cases stored with
  | ok _ => exact .pure _
  | error fault => exact (release_takes value).bind fun _ => .throw fault

/-- Asking for a length is a pop, the end of a reference and a push. -/
theorem pushLength_takes : Takes Effect pushLength := by
  refine popArray_takes.bind fun id => ?_
  refine (onHeap_takes (Heap.inspect_takes id _)).attempt.bind fun length => ?_
  refine (release_takes (.array id)).bind fun _ => ?_
  exact (Takes.settle length).bind fun count => push_takes _

/-- Going on to the next instruction has no effect of its own. -/
theorem next_takes {operation : Action Machine Unit} (spec : Takes Effect operation) :
    Takes Effect (do operation; return Transfer.next) :=
  spec.bind fun _ => .pure _

/-- A jump pops its condition, if it has one. -/
theorem jump_takes (condition : Condition) (target : Except Fault Nat) :
    Takes Effect (jump condition target) := by
  have taken : Takes Effect (do return Transfer.goto (← Action.settle target)) :=
    (Takes.settle target).bind fun address => .pure _
  cases condition with
  | always => exact taken
  | when expected =>
    refine popBool_takes.bind fun b => ?_
    split
    next => exact taken
    next => exact .pure _

/-- An operation has elementary effects only. -/
theorem perform_takes [Numbering] (p : Program) (i : Instruction) (address length : Nat) :
    Takes Effect (perform p i address length) := by
  unfold perform
  cases i.opcode with
  | nop => exact .pure _
  | pop => exact next_takes (onStack_takes OperandStack.drop_takes)
  | dup => exact next_takes (onStack_takes OperandStack.dup_takes)
  | print => exact next_takes print_takes
  | pushInt => exact next_takes (pushConstant_takes _ _ _)
  | pushFloat => exact next_takes (pushConstant_takes _ _ _)
  | pushBool b => exact next_takes (push_takes _)
  | loadLocal =>
    exact (onLocals_takes (Locals.load_takes _)).bind fun value => next_takes (push_takes value)
  | storeLocal =>
    exact pop_takes.bind fun value => next_takes (onLocals_takes (Locals.store_takes _ value))
  | stepLocal direction => exact next_takes (addToLocal_takes _ _)
  | intBinary operation =>
    dsimp only
    split
    next => exact (requireDivisor_takes _).bind fun _ => next_takes (intBinary_takes _)
    next => exact next_takes (intBinary_takes _)
  | negInt => exact popInt_takes.bind fun n => next_takes (push_takes _)
  | floatBinary operation =>
    dsimp only
    split
    next => exact (requireDivisor_takes _).bind fun _ => next_takes (floatBinary_takes _)
    next => exact next_takes (floatBinary_takes _)
  | negFloat => exact popFloat_takes.bind fun x => next_takes (push_takes _)
  | intToFloat => exact popInt_takes.bind fun n => next_takes (push_takes _)
  | floatToInt => exact popFloat_takes.bind fun x => next_takes (push_takes _)
  | not => exact popBool_takes.bind fun b => next_takes (push_takes _)
  | compareInt comparison => exact next_takes (intBinary_takes _)
  | compareFloat comparison => exact next_takes (floatBinary_takes _)
  | jump condition => exact jump_takes condition _
  | newArray => exact next_takes (newArray_takes _)
  | arrayLoad => exact next_takes arrayLoad_takes
  | arrayStore => exact next_takes arrayStore_takes
  | arrayLength => exact next_takes pushLength_takes
  | call => exact .pure _
  | ret => exact pop_takes.bind fun value => .pure _
  | retVoid => exact .pure _

end Operations

end Machine

namespace OperandStack

/-- These are the lowest entries. -/
def StandsOn (s : OperandStack) (below : Array Value) : Prop :=
  ∃ operands, s.entries = below ++ operands

/-- The present call sees an operand or it sees none. -/
theorem visible_cases (s : OperandStack) :
    (∃ (below : Array Value) (value : Value),
      s.entries = below.push value ∧ s.base ≤ below.size) ∨ s.entries.size ≤ s.base := by
  by_cases starved : s.entries.size ≤ s.base
  · exact .inr starved
  · obtain ⟨below, value, entries⟩ :=
      Array.exists_push_of_size_pos (Nat.lt_of_le_of_lt (Nat.zero_le _) (Nat.lt_of_not_le starved))
    rw [entries, Array.size_push, Nat.not_le] at starved
    exact .inl ⟨below, value, entries, Nat.le_of_lt_succ starved⟩

/-- What becomes of a stack whose entries below the base nobody touches. -/
structure Shields (s after : OperandStack) : Prop where
  base : after.base = s.base
  limit : after.limit = s.limit
  room : s.entries.size ≤ s.limit → after.entries.size ≤ after.limit
  below : ∀ below : Array Value, below.size ≤ s.base → s.StandsOn below → after.StandsOn below

namespace Shields

/-- A stack that stays as it is keeps what is below the base. -/
theorem refl (s : OperandStack) : s.Shields s where
  base := rfl
  limit := rfl
  room := id
  below := fun _ _ stands => stands

/-- What is below the base is kept along the way. -/
theorem trans {first second third : OperandStack} (early : first.Shields second)
    (late : second.Shields third) : first.Shields third where
  base := late.base.trans early.base
  limit := late.limit.trans early.limit
  room := fun fits => late.room (early.room fits)
  below := fun below hidden stands =>
    late.below below (early.base ▸ hidden) (early.below below hidden stands)

/-- A push where there is room stays above the base, and within the limit. -/
theorem push {s : OperandStack} (room : s.entries.size < s.limit) (value : Value) :
    s.Shields { s with entries := s.entries.push value } where
  base := rfl
  limit := rfl
  room := fun _ => by
    rw [Array.size_push]
    exact room
  below := by
    rintro below - ⟨operands, entries⟩
    refine ⟨operands.push value, ?_⟩
    rw [entries, Array.push_append]

/-- An own operand is above the base, so what is below stays when it is popped. -/
theorem pop {s : OperandStack} (own : s.base < s.entries.size) :
    s.Shields { s with entries := s.entries.pop } where
  base := rfl
  limit := rfl
  room := fun fits => by
    rw [Array.size_pop]
    exact Nat.le_trans (Nat.sub_le _ _) fits
  below := by
    rintro below hidden ⟨operands, entries⟩
    have taken : operands ≠ #[] := by
      rintro rfl
      rw [entries, Array.append_empty] at own
      omega
    refine ⟨operands.pop, ?_⟩
    rw [entries, Array.pop_append_of_ne_empty taken]

/-- The base stays within the stack. -/
theorem visible {s after : OperandStack} (shields : s.Shields after)
    (visible : s.base ≤ s.entries.size) : after.base ≤ after.entries.size := by
  have hidden : (s.entries.extract 0 s.base).size = s.base := by
    rw [Array.size_extract]
    omega
  have stands : s.StandsOn (s.entries.extract 0 s.base) :=
    ⟨s.entries.extract s.base s.entries.size, by
      rw [Array.extract_append_extract, Nat.zero_min, Nat.max_eq_right visible,
        Array.extract_size]⟩
  obtain ⟨operands, entries⟩ := shields.below _ (Nat.le_of_eq hidden) stands
  rw [shields.base, entries, Array.size_append, hidden]
  exact Nat.le_add_right _ _

end Shields

/-- An elementary change of the operands shields the callers' from it. -/
theorem Change.shields {s after : OperandStack} {h heap : Heap}
    (changed : Change (s, h) (after, heap)) : s.Shields after ∧ h.Evolves heap := by
  cases changed with
  | heap _ changed => exact ⟨.refl s, .single changed⟩
  | pushed _ room value => exact ⟨.push room value, .refl⟩
  | popped _ own => exact ⟨.pop own, .refl⟩

end OperandStack

namespace Core

/-- What is certain about a core after any number of effects. -/
structure Follows (c after : Core) : Prop where
  limits : after.limits = c.limits
  heap : c.heap.Evolves after.heap
  stack : c.stack.Shields after.stack

/-- A core that stays as it is follows itself. -/
theorem Follows.refl (c : Core) : c.Follows c := ⟨rfl, .refl, .refl _⟩

/-- Following is kept along the way. -/
theorem Follows.trans {first second third : Core} (early : first.Follows second)
    (late : second.Follows third) : first.Follows third where
  limits := late.limits.trans early.limits
  heap := early.heap.trans late.heap
  stack := early.stack.trans late.stack

end Core

/-- Whether an instruction enters a function or leaves one. -/
def Opcode.isTransfer : Opcode → Bool
  | call | ret | retVoid => true
  | _ => false

namespace Machine

open HotPath.Action

/-- An elementary effect stays within the core, and leaves everything around it alone. -/
theorem Effect.follows {c : Core} {s : Surroundings} {m : Machine} (effect : Effect (c.plug s) m) :
    ∃ after, m = after.plug s ∧ c.Follows after := by
  cases effect with
  | @operands stack heap changed =>
    obtain ⟨shields, evolves⟩ := changed.shields
    exact ⟨{ c with stack, heap }, rfl, rfl, evolves, shields⟩
  | @slots frame callers locals heap running changed =>
    obtain ⟨rfl, rfl⟩ := CallStack.push_inj running
    refine ⟨{ c with locals, heap }, rfl, rfl, ?_, .refl _⟩
    cases changed with
    | heap _ changed => exact .single changed
    | written => exact .refl
  | printed line => exact ⟨{ c with output := c.output.push line }, rfl, rfl, .refl, .refl _⟩

/-- An elementary effect changes the heap by elementary changes, if it does. -/
theorem Effect.evolves {m after : Machine} (effect : Effect m after) :
    m.heap.Evolves after.heap := by
  cases effect with
  | operands changed => exact changed.shields.2
  | slots _ changed =>
    cases changed with
    | heap _ changed => exact .single changed
    | written => exact .refl
  | printed line => exact .refl

/-- So do any number of effects. -/
theorem evolves_of_effects {m after : Machine} (effects : ReflTransGen Effect m after) :
    m.heap.Evolves after.heap := by
  induction effects with
  | refl => exact .refl
  | tail _ effect ih => exact ih.trans effect.evolves

/-- Unwinding a machine gives back what it holds. -/
theorem unwind_evolves (m : Machine) : m.heap.Evolves m.unwind.heap :=
  Heap.releaseEach_takes m.held m.heap

/-- Effects keep to the core. -/
theorem follows_of_effects {c : Core} {s : Surroundings} {m : Machine}
    (effects : ReflTransGen Effect (c.plug s) m) : ∃ after, m = after.plug s ∧ c.Follows after := by
  induction effects with
  | refl => exact ⟨c, rfl, .refl c⟩
  | tail _ effect ih =>
    obtain ⟨between, rfl, early⟩ := ih
    obtain ⟨after, same, late⟩ := effect.follows
    exact ⟨after, same, early.trans late⟩

section Control

/-- An action sends control neither into a function nor out of one. -/
def Stays (action : Action Machine Transfer) : Prop :=
  ∀ m transfer after, action m = .ok transfer after →
    transfer = .next ∨ ∃ target, transfer = .goto target

/-- A sequence stays in the function if it does whatever its first action answers. -/
theorem Stays.bind {α : Type} {action : Action Machine α} {rest : α → Action Machine Transfer}
    (stays : ∀ answer, Stays (rest answer)) : Stays (action >>= rest) := by
  intro m transfer after ran
  rw [bind_apply] at ran
  cases first : action m with
  | ok answer between =>
    rw [first] at ran
    exact stays answer between transfer after ran
  | error fault between =>
    rw [first] at ran
    cases ran

/-- Going on to the next instruction stays in the function. -/
theorem Stays.next : Stays (return .next) := by
  intro m transfer after ran
  cases ran
  exact .inl rfl

/-- Going to an address stays in the function. -/
theorem Stays.goto (target : Nat) : Stays (return .goto target) := by
  intro m transfer after ran
  cases ran
  exact .inr ⟨target, rfl⟩

/-- A jump stays in the function, taken or not. -/
theorem jump_stays (condition : Condition) (target : Except Fault Nat) :
    Stays (jump condition target) := by
  cases condition with
  | always => exact .bind fun address => .goto address
  | when expected =>
    refine .bind fun b => ?_
    split
    next => exact .bind fun address => .goto address
    next => exact .next

/-- An operation that is neither a call nor a return stays in the function. -/
theorem perform_stays (p : Program) {i : Instruction} (stays : i.opcode.isTransfer = false)
    (address length : Nat) : Stays (perform p i address length) := by
  unfold perform
  cases opcode : i.opcode with
  | call | ret | retVoid =>
    rw [opcode] at stays
    cases stays
  | nop => exact .next
  | jump condition => exact jump_stays condition _
  | loadLocal | storeLocal | negInt | negFloat | intToFloat | floatToInt | not =>
    exact .bind fun _ => .bind fun _ => .next
  | intBinary operation | floatBinary operation =>
    dsimp only
    split
    next => exact .bind fun _ => .bind fun _ => .next
    next => exact .bind fun _ => .next
  | _ => exact .bind fun _ => .next

end Control

/-- Without an operand of its own a call has nothing to pop. -/
theorem pop_starved {c : Core} (starved : c.stack.entries.size ≤ c.stack.base)
    (s : Surroundings) : pop (c.plug s) = .error .stackUnderflow (c.plug s) := by
  have refused : c.stack.peek = .error .stackUnderflow := by
    rw [OperandStack.peek, if_pos starved]
  simp only [pop, onStack, Core.plug, onLeft, OperandStack.pop, refused]

/-- A frame stands where it is left with a value, and these are the entries without that value. -/
inductive Departs (frame : Frame) (stack : OperandStack) : Option Value → Array Value → Prop where
  | value {i : Instruction} (here : frame.function.code.Has frame.pc i) (opcode : i.opcode = .ret)
    {left : Array Value} {value : Value} (entries : stack.entries = left.push value)
    (visible : stack.base ≤ left.size) : Departs frame stack (some value) left
  | void {i : Instruction} (here : frame.function.code.Has frame.pc i)
    (opcode : i.opcode = .retVoid) : Departs frame stack none stack.entries
  | ended (absent : frame.function.code.recordAt? frame.pc = none) :
    Departs frame stack none stack.entries

/-- It does not matter what else is known of the frame. -/
theorem Departs.of_same {frame other : Frame} {stack : OperandStack} {value : Option Value}
    {left : Array Value} (departs : Departs frame stack value left)
    (function : other.function = frame.function) (pc : other.pc = frame.pc) :
    Departs other stack value left := by
  cases departs with
  | value here opcode entries visible =>
    rw [← function, ← pc] at here
    exact .value here opcode entries visible
  | void here opcode =>
    rw [← function, ← pc] at here
    exact .void here opcode
  | ended absent =>
    rw [← function, ← pc] at absent
    exact .ended absent

/-- Everything that executing one instruction can lead to. -/
inductive Advances (p : Program) (c : Core) (s : Surroundings) :
    EStateM.Result Fault Machine Progress → Prop where
  | stayed {after : Core} (follows : c.Follows after) (address : Nat) :
    Advances p c s (.ok .running (after.plug ((s.counted 1).goto address)))
  | failed {after : Core} (follows : c.Follows after) (fault : Fault) (count : Nat) :
    Advances p c s (.error fault (after.plug (s.counted count)))
  | called {i : Instruction} {callee : Function}
    (here : s.frame.function.code.Has s.frame.pc i) (opcode : i.opcode = .call)
    (known : p.functions[i.index]? = some callee) :
    Advances p c s (.ok (.calling i.index callee (s.frame.pc + 1)) (c.plug (s.counted 1)))
  | departed {value : Option Value} {left : Array Value}
    (departs : Departs s.frame c.stack value left) (count : Nat) :
    Advances p c s (leave value ((c.withEntries left).plug (s.counted count)))

/-- What an operation does to a machine keeps to the core. -/
theorem perform_follows (p : Program) (i : Instruction) (address length : Nat) (c : Core)
    (s : Surroundings) :
    match perform p i address length (c.plug s) with
    | .ok _ m | .error _ m => ∃ after, m = after.plug s ∧ c.Follows after := by
  have follows := follows_of_effects (perform_takes p i address length (c.plug s))
  unfold Action.after at follows
  cases ran : perform p i address length (c.plug s) with
  | ok transfer m => rwa [ran] at follows
  | error fault m => rwa [ran] at follows

/-- An operation that stays in the function leads to an address in it, or fails. -/
theorem advances_of_stays (p : Program) (c : Core) (s : Surroundings) {i : Instruction}
    (here : s.frame.function.code.Has s.frame.pc i) (stays : i.opcode.isTransfer = false) :
    Advances p c s (advance p (c.plug s)) := by
  have follows := perform_follows p i s.frame.pc s.frame.function.code.instructionCount c
    (s.counted 1)
  rw [advance_eq here, bind_apply]
  cases ran : perform p i s.frame.pc s.frame.function.code.instructionCount
      (c.plug (s.counted 1)) with
  | ok transfer m =>
    rw [ran] at follows
    obtain ⟨after, rfl, follows⟩ := follows
    obtain rfl | ⟨target, rfl⟩ := perform_stays p stays _ _ _ _ _ ran
    · exact .stayed follows (s.frame.pc + 1)
    · exact .stayed follows target
  | error fault m =>
    rw [ran] at follows
    obtain ⟨after, rfl, follows⟩ := follows
    exact .failed follows fault 1

/-- A call asks for the callee to be entered, or fails because nothing has its index. -/
theorem advances_of_call (p : Program) (c : Core) (s : Surroundings) {i : Instruction}
    (here : s.frame.function.code.Has s.frame.pc i) (opcode : i.opcode = .call) :
    Advances p c s (advance p (c.plug s)) := by
  cases known : p.functions[i.index]? with
  | some callee =>
    rw [advance_call here opcode rfl known]
    exact .called here opcode known
  | none =>
    rw [advance_call_unknown here opcode known]
    exact .failed (.refl c) (.invalidFunctionIndex i.index) 1

/-- A return pops what it leaves with. -/
theorem perform_ret (p : Program) {i : Instruction} (opcode : i.opcode = .ret)
    (address length : Nat) : perform p i address length = (do return .leave (some (← pop))) := by
  rw [perform, opcode]

/-- A return takes its value and leaves the frame. -/
theorem advance_ret (p : Program) {c : Core} {s : Surroundings} {i : Instruction}
    (here : s.frame.function.code.Has s.frame.pc i) (opcode : i.opcode = .ret)
    {left : Array Value} {value : Value} (entries : c.stack.entries = left.push value)
    (visible : c.stack.base ≤ left.size) :
    advance p (c.plug s) = leave (some value) ((c.withEntries left).plug (s.counted 1)) := by
  have popped := bind_of_ok (pop_plug entries visible (s.counted 1)) fun value =>
    return Transfer.leave (some value)
  rw [advance_eq here, perform_ret p opcode, bind_of_ok popped]
  rfl

/-- A return without an operand of its own faults. -/
theorem advance_ret_starved (p : Program) {c : Core} {s : Surroundings} {i : Instruction}
    (here : s.frame.function.code.Has s.frame.pc i) (opcode : i.opcode = .ret)
    (starved : c.stack.entries.size ≤ c.stack.base) :
    advance p (c.plug s) = .error .stackUnderflow (c.plug (s.counted 1)) := by
  have refused := bind_of_error (pop_starved starved (s.counted 1)) fun value =>
    return Transfer.leave (some value)
  rw [advance_eq here, perform_ret p opcode, bind_of_error refused]

/-- A return without a value leaves the frame at once. -/
theorem advance_retVoid (p : Program) {c : Core} {s : Surroundings} {i : Instruction}
    (here : s.frame.function.code.Has s.frame.pc i) (opcode : i.opcode = .retVoid) :
    advance p (c.plug s) = leave none (c.plug (s.counted 1)) := by
  rw [advance_eq here, perform, opcode]
  rfl

/-- A frame that stands where it is left is left, with its value taken off the operands. -/
theorem advance_of_departs (p : Program) {c : Core} {s : Surroundings} {value : Option Value}
    {left : Array Value} (departs : Departs s.frame c.stack value left) :
    ∃ count, advance p (c.plug s) =
      leave value ((c.withEntries left).plug (s.counted count)) := by
  cases departs with
  | value here opcode entries visible => exact ⟨1, advance_ret p here opcode entries visible⟩
  | void here opcode => exact ⟨1, advance_retVoid p here opcode⟩
  | ended absent => exact ⟨0, advance_absent absent⟩

/-- Leaving a frame is one of the things listed. -/
theorem advances_of_departs (p : Program) {c : Core} {s : Surroundings} {value : Option Value}
    {left : Array Value} (departs : Departs s.frame c.stack value left) :
    Advances p c s (advance p (c.plug s)) := by
  obtain ⟨count, leaves⟩ := advance_of_departs p departs
  rw [leaves]
  exact .departed departs count

/-- A return leaves the frame, or fails because there is no operand to return. -/
theorem advances_of_ret (p : Program) (c : Core) (s : Surroundings) {i : Instruction}
    (here : s.frame.function.code.Has s.frame.pc i) (opcode : i.opcode = .ret) :
    Advances p c s (advance p (c.plug s)) := by
  rcases c.stack.visible_cases with ⟨below, value, entries, visible⟩ | starved
  · exact advances_of_departs p (.value here opcode entries visible)
  · rw [advance_ret_starved p here opcode starved]
    exact .failed (.refl c) .stackUnderflow 1

/-- An instruction does one of the things listed. -/
theorem advance_cases (p : Program) (c : Core) (s : Surroundings) :
    Advances p c s (advance p (c.plug s)) := by
  cases found : s.frame.function.code.recordAt? s.frame.pc with
  | none => exact advances_of_departs p (.ended found)
  | some record =>
    cases decoded : Instruction.decode record s.frame.pc with
    | error problem =>
      rw [advance_unreadable found decoded]
      exact .failed (.refl c) (.invalidOpcode record.code s.frame.pc) 0
    | ok i =>
      have here : s.frame.function.code.Has s.frame.pc i := ⟨record, found, decoded⟩
      cases opcode : i.opcode with
      | call => exact advances_of_call p c s here opcode
      | ret => exact advances_of_ret p c s here opcode
      | retVoid => exact advances_of_departs p (.void here opcode)
      | _ => exact advances_of_stays p c s here (by rw [opcode]; rfl)

end Machine

end HotPath
