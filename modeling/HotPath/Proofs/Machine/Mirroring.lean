import HotPath.Proofs.Machine.Ownership
import HotPath.Proofs.Store.Mirroring

/-!
# Operations that twins cannot be told apart by

`Machine.Twins past m n inHand` says that one machine is where another one is that has not
been through the first one's past. They hold paired values in the same places, their frames are
at the same instructions of the same functions, and since that past they have printed the same
lines and executed the same number of instructions. What arrays are called, and which slots of
the heap are free, may differ.

Every operation keeps machines twins, and `perform_mirrors` puts this together for all
instructions. It follows the layout of `perform_conserves`.
-/

namespace HotPath

open HotPath.Action

/-- What a machine has behind it. -/
structure Past where
  limits : Limits
  output : Array String
  executed : ExecutionCounts
  heap : HeapCounts

/-- The frames are at the same places of the same calls and hold paired values in their slots. -/
inductive FramesAlike : List Frame → List Frame → Pairs → Prop where
  | nil : FramesAlike [] [] []
  | cons {function : Function} {index pc base : Nat} {returnAddress : Option Nat} {l k : Locals}
    {own rest : Pairs} {callers waiting : List Frame} (slots : l.Alike k own)
    (others : FramesAlike callers waiting rest) :
    FramesAlike (⟨function, index, l, pc, returnAddress, base⟩ :: callers)
      (⟨function, index, k, pc, returnAddress, base⟩ :: waiting) (own ++ rest)

namespace FramesAlike

/-- There are as many frames on either side. -/
theorem length_eq {callers waiting : List Frame} {slots : Pairs}
    (alike : FramesAlike callers waiting slots) : callers.length = waiting.length := by
  induction alike with
  | nil => rfl
  | cons _ _ ih => exact congrArg Nat.succ ih

/-- The slots of all frames hold the left parts of the pairs on one side, and the right parts on the
other. -/
theorem flatMap_eq {callers waiting : List Frame} {slots : Pairs}
    (alike : FramesAlike callers waiting slots) :
    (callers.flatMap fun f => f.locals.slots.toList) = slots.map Prod.fst ∧
      (waiting.flatMap fun f => f.locals.slots.toList) = slots.map Prod.snd := by
  induction alike with
  | nil => exact ⟨rfl, rfl⟩
  | cons slots _ ih =>
    rw [List.flatMap_cons, List.flatMap_cons, List.map_append, List.map_append, slots.left,
      slots.right, ih.1, ih.2]
    exact ⟨rfl, rfl⟩

/-- There is a frame on both sides or on neither. -/
theorem cases_calls {calls others : CallStack} {slots : Pairs}
    (alike : FramesAlike calls.frames others.frames slots) :
    (calls = .empty ∧ others = .empty ∧ slots = []) ∨
      ∃ (frame : Frame) (locals : Locals) (callers waiting : CallStack) (own rest : Pairs),
        calls = callers.push frame ∧ others = waiting.push { frame with locals } ∧
        slots = own ++ rest ∧ frame.locals.Alike locals own ∧
        FramesAlike callers.frames waiting.frames rest := by
  obtain rfl | ⟨frame, callers, rfl⟩ := calls.eq_empty_or_push <;>
    obtain rfl | ⟨other, waiting, rfl⟩ := others.eq_empty_or_push
  · have frames : FramesAlike [] [] slots := alike
    cases frames
    exact .inl ⟨rfl, rfl, rfl⟩
  · have frames : FramesAlike [] (other :: waiting.frames) slots := alike
    cases frames
  · have frames : FramesAlike (frame :: callers.frames) [] slots := alike
    cases frames
  · have frames : FramesAlike (frame :: callers.frames) (other :: waiting.frames) slots := alike
    cases frames with
    | @cons _ _ _ _ _ l k own rest _ _ same others =>
      exact .inr ⟨_, k, callers, waiting, own, rest, rfl, rfl, rfl, same, others⟩

end FramesAlike

namespace Machine

/-- Apart from their heaps the machines differ in the values that they hold and in what the first
one has behind it. -/
structure Parallel (past : Past) (m n : Machine) (slots entries : Pairs) : Prop where
  limits : m.limits = past.limits
  limitsToo : n.limits = past.limits
  stack : m.stack.Alike past.limits.stackSize n.stack entries
  frames : FramesAlike m.frames n.frames slots
  output : m.output = past.output ++ n.output
  instructions : m.counts.instructions = past.executed.instructions + n.counts.instructions
  calls : m.counts.calls = past.executed.calls + n.counts.calls

/-- The one machine is where the other one is, which does not have `past` behind it. -/
def Matched (past : Past) (m n : Machine) (inHand : Pairs) : Prop :=
  ∃ slots entries, Parallel past m n slots entries ∧
    m.heap.Twins past.heap n.heap (inHand ++ (slots ++ entries))

/-- The machines match, and a call is in progress. -/
def Twins (past : Past) (m n : Machine) (inHand : Pairs) : Prop :=
  m.frames ≠ [] ∧ Matched past m n inHand

namespace Twins

variable {past : Past} {m n : Machine} {inHand : Pairs}

/-- A pair that is no reference may be in hand or not. -/
theorem cons_iff_of_not_reference {value : Value} (plain : value.isReference = false) :
    Twins past m n ((value, value) :: inHand) ↔ Twins past m n inHand := by
  constructor
  · rintro ⟨ready, slots, entries, alike, heap⟩
    exact ⟨ready, slots, entries, alike, (Heap.Twins.cons_iff_of_not_reference plain).mp heap⟩
  · rintro ⟨ready, slots, entries, alike, heap⟩
    exact ⟨ready, slots, entries, alike, (Heap.Twins.cons_iff_of_not_reference plain).mpr heap⟩

end Twins

section Parts

variable {past : Past} {α : Type} {taken : Pairs} {given : α → α → Pairs → Prop}

/-- It makes no difference whether a value that is no reference is in hand. -/
theorem mirrors_cons_iff {action image : Action Machine α} {value : Value}
    (plain : value.isReference = false) :
    Mirrors (Twins past) ((value, value) :: taken) action image given ↔
      Mirrors (Twins past) taken action image given := by
  constructor
  · intro spec m n others twins
    exact spec m n others ((Twins.cons_iff_of_not_reference plain).mpr twins)
  · intro spec m n others twins
    exact spec m n others ((Twins.cons_iff_of_not_reference plain).mp twins)

/-- What mirrors on heaps mirrors on machines: whatever else they hold is in hand meanwhile. -/
theorem onHeap_mirrors {action image : Action Heap α}
    (spec : Mirrors (Heap.Twins past.heap) taken action image given) :
    Mirrors (Twins past) taken (onHeap action) (onHeap image) given := by
  rintro ⟨limits, h, stack, calls, output, counts⟩ ⟨_, g, _, _, _, _⟩ others
    ⟨ready, slots, entries, alike, twins⟩
  rw [List.append_assoc] at twins
  have result := spec h g _ twins
  simp only [onHeap]
  generalize action h = first at result
  generalize image g = second at result
  cases result with
  | ok answers twins =>
    rw [← List.append_assoc] at twins
    exact .ok answers ⟨ready, slots, entries, { alike with }, twins⟩
  | error fault twins => exact .error fault ⟨ready, slots, entries, { alike with }, twins⟩

/-- A fault on the heap that is held back is held back on either side. -/
theorem attempt_onHeap_mirrors {action image : Action Heap α}
    {given : Except Fault α → Except Fault α → Pairs → Prop}
    (spec : Mirrors (Heap.Twins past.heap) taken (attempt action) (attempt image) given) :
    Mirrors (Twins past) taken (attempt (onHeap action)) (attempt (onHeap image)) given := by
  rw [attempt_onHeap, attempt_onHeap]
  exact onHeap_mirrors spec

/-- What mirrors on operands mirrors on machines, with the slots of all frames in hand meanwhile. -/
theorem onStack_mirrors {action image : Action (OperandStack × Heap) α}
    (spec : Mirrors (OperandStack.Twins past.limits.stackSize past.heap) taken action image given) :
    Mirrors (Twins past) taken (onStack action) (onStack image) given := by
  rintro ⟨limits, h, stack, calls, output, counts⟩ ⟨_, g, operands, _, _, _⟩ others
    ⟨ready, slots, entries, alike, twins⟩
  -- The slots of the frames are in the hand of whoever works on the operands.
  rw [List.append_assoc, ← List.append_assoc others, ← List.append_assoc taken] at twins
  have result := spec (stack, h) (operands, g) (others ++ slots) ⟨entries, alike.stack, twins⟩
  simp only [onStack]
  generalize action (stack, h) = first at result
  generalize image (operands, g) = second at result
  cases result with
  | ok answers twins =>
    obtain ⟨entries, paired, twins⟩ := twins
    rw [← List.append_assoc, List.append_assoc] at twins
    exact .ok answers ⟨ready, slots, entries, { alike with stack := paired }, twins⟩
  | error fault twins =>
    obtain ⟨entries, paired, twins⟩ := twins
    rw [List.append_assoc] at twins
    exact .error fault ⟨ready, slots, entries, { alike with stack := paired }, twins⟩

/-- What mirrors on slots mirrors on machines, with the operands and the other frames' slots in
hand. -/
theorem onLocals_mirrors {action image : Action (Locals × Heap) α}
    (spec : Mirrors (Locals.Twins past.heap) taken action image given) :
    Mirrors (Twins past) taken (onLocals action) (onLocals image) given := by
  rintro ⟨limits, h, stack, calls, output, counts⟩ ⟨_, g, _, others, _, _⟩ kept
    ⟨ready, slots, entries, alike, twins⟩
  rcases alike.frames.cases_calls with
    ⟨rfl, -⟩ | ⟨frame, locals, callers, waiting, own, rest, rfl, rfl, rfl, here, others⟩
  · exact absurd rfl ready
  obtain ⟨function, index, l, pc, returnAddress, base⟩ := frame
  -- The callers' slots and the operands are in the hand of whoever works on these slots.
  have moved (h g : Heap) (inHand own : Pairs) :
      h.Twins past.heap g (inHand ++ (kept ++ (rest ++ entries)) ++ own) ↔
        h.Twins past.heap g (inHand ++ kept ++ (own ++ rest ++ entries)) := by
    constructor <;> intro twins <;> refine twins.of_count_eq fun pair => ?_ <;>
      simp only [List.count_append] <;> omega
  have result := spec (l, h) (locals, g) _ ⟨own, here, (moved h g taken own).mpr twins⟩
  simp only [onLocals, CallStack.pop?_push]
  generalize action (l, h) = first at result
  generalize image (locals, g) = second at result
  cases result with
  | @ok answer other after afterwards handed answers twins =>
    obtain ⟨own, here, twins⟩ := twins
    exact .ok answers ⟨List.cons_ne_nil _ _, own ++ rest, entries,
      { alike with frames := .cons here others }, (moved _ _ handed own).mp twins⟩
  | @error fault after afterwards twins =>
    obtain ⟨own, here, twins⟩ := twins
    exact .error fault ⟨List.cons_ne_nil _ _, own ++ rest, entries,
      { alike with frames := .cons here others }, (moved _ _ [] own).mp twins⟩

end Parts

section Operands

variable {past : Past}

/-- A push takes a pair out of hand, with room and without. -/
theorem push_mirrors (value other : Value) :
    Mirrors (Twins past) [(value, other)] (push value) (push other) (Kept []) :=
  onStack_mirrors (OperandStack.pushOrRelease_mirrors value other)

/-- A value that is no reference comes from nowhere. -/
theorem push_mirrors_of_not_reference {value : Value} (plain : value.isReference = false) :
    Mirrors (Twins past) [] (push value) (push value) (Kept []) :=
  (mirrors_cons_iff plain).mp (push_mirrors value value)

/-- A pop puts the same pair in hand on either side, or underflows on both. -/
theorem pop_mirrors : Mirrors (Twins past) [] pop pop Handed :=
  onStack_mirrors OperandStack.pop_mirrors

/-- The operands on top of either stack are a pair. -/
theorem peek_mirrors : Mirrors (Twins past) [] peek peek Shown :=
  onStack_mirrors OperandStack.peek_mirrors

/-- Giving back both parts of a pair takes it out of hand. -/
theorem release_mirrors (value other : Value) :
    Mirrors (Twins past) [(value, other)] (release value) (release other) (Kept []) :=
  onHeap_mirrors (Heap.releaseValue_mirrors value other)

/-- The same line is printed on either side. -/
theorem printLine_mirrors (line : String) :
    Mirrors (Twins past) [] (printLine line) (printLine line) (Kept []) := by
  rintro m n others ⟨ready, slots, entries, alike, twins⟩
  have output : m.output.push line = past.output ++ n.output.push line := by
    rw [alike.output, Array.push_append]
  exact .ok (.intro trivial) ⟨ready, slots, entries, { alike with output }, twins⟩

/-- Two values that go together are read alike, or neither is of the type that is asked for. -/
inductive Reads {α : Type} (past : Past) (given : α → α → Pairs → Prop) (value other : Value) :
    Option α → Option α → Prop where
  | some {inner image : α}
    (passes : Mirrors (Twins past) [(value, other)] (pure inner) (pure image) given) :
    Reads past given value other (some inner) (some image)
  | none : Reads past given value other none none

/-- Popping an operand of one type. -/
theorem popAs_mirrors {α : Type} {expected : Shape} {read? : Value → Option α}
    {given : α → α → Pairs → Prop}
    (reads : ∀ value other, value.Like other →
      Reads past given value other (read? value) (read? other)) :
    Mirrors (Twins past) [] (popAs expected read?) (popAs expected read?) given := by
  apply pop_mirrors.bind
  rintro value other _ ⟨like⟩
  have result := reads value other like
  generalize read? value = first at result
  generalize read? other = second at result
  cases result with
  | some passes => exact passes
  | none =>
    rw [like.shape]
    exact (release_mirrors value other).next fun _ _ => .throw _

/-- An operand that is no reference is read the same on both sides. -/
theorem popAs_mirrors_of_plain {α : Type} {expected : Shape} {read? : Value → Option α}
    (reads : ∀ id, read? (.array id) = none) :
    Mirrors (Twins past) [] (popAs expected read?) (popAs expected read?) (Kept []) := by
  apply popAs_mirrors
  intro value other like
  cases like with
  | array a b =>
    rw [reads, reads]
    exact .none
  | plain plain =>
    cases read? value with
    | some inner => exact .some ((mirrors_cons_iff plain).mpr .done)
    | none => exact .none

/-- An integer is the same on either side. -/
theorem popInt_mirrors : Mirrors (Twins past) [] popInt popInt (Kept []) :=
  popAs_mirrors_of_plain fun _ => rfl

/-- A float is the same on either side. -/
theorem popFloat_mirrors : Mirrors (Twins past) [] popFloat popFloat (Kept []) :=
  popAs_mirrors_of_plain fun _ => rfl

/-- A boolean is the same on either side. -/
theorem popBool_mirrors : Mirrors (Twins past) [] popBool popBool (Kept []) :=
  popAs_mirrors_of_plain fun _ => rfl

/-- An array may have different ids on the two sides, which are a pair in hand. -/
theorem popArray_mirrors : Mirrors (Twins past) [] popArray popArray Named := by
  apply popAs_mirrors
  intro value other like
  cases like with
  | array a b => exact .some (.pure (.intro a b))
  | plain plain =>
    cases value with
    | array id => cases plain
    | _ => exact .none

end Operands

section Operations

variable {past : Past}

/-- The divisor is an operand that is seen on both sides. -/
theorem requireDivisor_mirrors {isZero : Value → Bool}
    (same : ∀ value other, value.Like other → isZero value = isZero other) :
    Mirrors (Twins past) [] (requireDivisor isZero) (requireDivisor isZero) (Kept []) := by
  apply peek_mirrors.bind
  rintro divisor other _ ⟨like⟩
  rw [same divisor other like]
  split
  next => exact .throw _
  next => exact .done

/-- An integer divisor is zero on both sides or on neither. -/
theorem requireIntDivisor_mirrors :
    Mirrors (Twins past) [] (requireDivisor isIntZero) (requireDivisor isIntZero) (Kept []) :=
  requireDivisor_mirrors fun _ _ like => by cases like <;> rfl

/-- A float divisor is zero on both sides or on neither. -/
theorem requireFloatDivisor_mirrors :
    Mirrors (Twins past) [] (requireDivisor isFloatZero) (requireDivisor isFloatZero) (Kept []) :=
  requireDivisor_mirrors fun _ _ like => by cases like <;> rfl

/-- An operation on integers has the same result on either side, and no array is in it. -/
theorem intBinary_mirrors {result : Int64 → Int64 → Value}
    (plain : ∀ a b, (result a b).isReference = false) :
    Mirrors (Twins past) [] (intBinary result) (intBinary result) (Kept []) :=
  popInt_mirrors.next fun b _ => popInt_mirrors.next fun a _ =>
    push_mirrors_of_not_reference (plain a b)

/-- An operation on floats has the same result on either side, and no array is in it. -/
theorem floatBinary_mirrors {result : Double → Double → Value}
    (plain : ∀ a b, (result a b).isReference = false) :
    Mirrors (Twins past) [] (floatBinary result) (floatBinary result) (Kept []) :=
  popFloat_mirrors.next fun b _ => popFloat_mirrors.next fun a _ =>
    push_mirrors_of_not_reference (plain a b)

/-- A constant is the same on either side. -/
theorem pushConstant_mirrors {α : Type} (table : Array α) (index : Nat) {value : α → Value}
    (plain : ∀ constant, (value constant).isReference = false) :
    Mirrors (Twins past) [] (pushConstant table index value) (pushConstant table index value)
      (Kept []) := by
  unfold pushConstant
  split
  next constant _ => exact push_mirrors_of_not_reference (plain constant)
  next => exact .throw _

/-- The text of a value is the same on either side, whatever its array is called. -/
theorem print_mirrors : Mirrors (Twins past) [] print print (Kept []) := by
  apply pop_mirrors.bind
  rintro value other _ ⟨-⟩
  refine (attempt_onHeap_mirrors (Heap.textOf_mirrors value other)).next fun line _ => ?_
  refine (release_mirrors value other).next fun _ _ => ?_
  exact (Mirrors.settle fun _ _ => trivial).next fun text _ => printLine_mirrors text

/-- A slot that is stepped holds the same integer on either side. -/
theorem addToLocal_mirrors (index : Nat) (amount : Int64) :
    Mirrors (Twins past) [] (addToLocal index amount) (addToLocal index amount) (Kept []) :=
  (onLocals_mirrors (Locals.getInt_mirrors index)).next fun n _ =>
    onLocals_mirrors (Locals.setInt_mirrors index (n + amount))

/-- The machines have the same limits. -/
theorem ofLimits_mirrors {α : Type} (read : Limits → Except Fault α) :
    Mirrors (Twins past) [] (Action.ofExcept fun m => read m.limits)
      (Action.ofExcept fun m => read m.limits) (Kept []) := by
  rintro m n others twins
  have ⟨_, _, _, alike, _⟩ := twins
  simp only [Action.ofExcept, alike.limits, alike.limitsToo]
  cases read past.limits with
  | ok answer => exact .ok (.intro trivial) twins
  | error fault => exact .error fault twins

/-- The arrays that are made are a pair, whatever slots of the heaps they get. -/
theorem newArray_mirrors (tag : Nat) :
    Mirrors (Twins past) [] (newArray tag) (newArray tag) (Kept []) := by
  unfold newArray
  split
  next => exact .throw _
  next type _ =>
    refine popInt_mirrors.next fun requested _ => ?_
    refine (ofLimits_mirrors fun limits => arrayLength limits.arrayLength requested).next
      fun length _ => ?_
    refine (onHeap_mirrors (Heap.allocate_mirrors (.zeros type length))).bind ?_
    rintro a b _ ⟨⟩
    exact push_mirrors (.array a) (.array b)

/-- The elements that are loaded are a pair. -/
theorem arrayLoad_mirrors : Mirrors (Twins past) [] arrayLoad arrayLoad (Kept []) := by
  refine popInt_mirrors.next fun index _ => popArray_mirrors.bind ?_
  rintro a b _ ⟨⟩
  refine (attempt_onHeap_mirrors (Heap.load_mirrors a b index)).next fun element plain => ?_
  refine (release_mirrors (.array a) (.array b)).next fun _ _ => ?_
  exact (Mirrors.settle plain).next fun value plain => push_mirrors_of_not_reference plain

/-- What is stored is no reference; a value that is refused stays in hand. -/
theorem storeElement_mirrors {value other : Value} (like : value.Like other) :
    Mirrors (Twins past) [] (storeElement value) (storeElement other)
      (Kept [] fun _ => value.isReference = false) := by
  refine popInt_mirrors.next fun index _ => popArray_mirrors.bind ?_
  rintro a b _ ⟨⟩
  refine (attempt_onHeap_mirrors (Heap.store_mirrors a b index like)).next fun stored plain => ?_
  exact (release_mirrors (.array a) (.array b)).next fun _ _ => Mirrors.settle fun _ => plain

/-- A store succeeds on both sides or on neither, and the arrays' elements stay paired. -/
theorem arrayStore_mirrors : Mirrors (Twins past) [] arrayStore arrayStore (Kept []) := by
  apply pop_mirrors.bind
  rintro value other _ ⟨like⟩
  apply ((storeElement_mirrors like).attempt [(value, other)]).bind
  rintro _ _ _ (⟨⟨plain⟩⟩ | ⟨fault⟩)
  · cases like with
    | plain => exact (mirrors_cons_iff plain).mpr .done
    | array => cases plain
  · exact (release_mirrors value other).next fun _ _ => .throw fault

/-- An array has the same length as the one that it is paired with. -/
theorem pushLength_mirrors : Mirrors (Twins past) [] pushLength pushLength (Kept []) := by
  apply popArray_mirrors.bind
  rintro a b _ ⟨⟩
  refine (attempt_onHeap_mirrors (Heap.length_mirrors a b)).next fun length _ => ?_
  refine (release_mirrors (.array a) (.array b)).next fun _ _ => ?_
  exact (Mirrors.settle fun _ _ => trivial).next fun count _ => push_mirrors_of_not_reference rfl

end Operations

/-- Both calls answer with a value or neither does. -/
inductive Answered : Option Value → Option Value → Pairs → Prop where
  | none : Answered none none []
  | some (value other : Value) : Answered (some value) (some other) [(value, other)]

/-- Control goes the same way. -/
inductive Goes : Transfer → Transfer → Pairs → Prop where
  | next : Goes .next .next []
  | goto (address : Nat) : Goes (.goto address) (.goto address) []
  | call (index : Nat) : Goes (.call index) (.call index) []
  | leave {value other : Option Value} {handed : Pairs} (answered : Answered value other handed) :
    Goes (.leave value) (.leave other) handed

section Control

variable {past : Past}

/-- An operation after which control goes to the instruction that follows. -/
theorem next_mirrors {taken : Pairs} {operation image : Action Machine Unit}
    (spec : Mirrors (Twins past) taken operation image (Kept [])) :
    Mirrors (Twins past) taken (do operation; return Transfer.next)
      (do image; return Transfer.next) Goes :=
  spec.next fun _ _ => .pure .next

/-- A jump is taken on both sides or on neither, and leads to the same address. -/
theorem jump_mirrors (condition : Condition) (target : Except Fault Nat) :
    Mirrors (Twins past) [] (jump condition target) (jump condition target) Goes := by
  have taken : Mirrors (Twins past) [] (do return Transfer.goto (← Action.settle target))
      (do return Transfer.goto (← Action.settle target)) Goes :=
    (Mirrors.settle fun _ _ => trivial).next fun address _ => .pure (.goto address)
  cases condition with
  | always => exact taken
  | when expected =>
    refine popBool_mirrors.next fun b _ => ?_
    split
    next => exact taken
    next => exact .pure .next

/-- An instruction does the same to twins. -/
theorem perform_mirrors (p : Program) (i : Instruction) (address length : Nat) :
    Mirrors (Twins past) [] (perform p i address length) (perform p i address length) Goes := by
  unfold perform
  cases i.opcode with
  | nop => exact .pure .next
  | pop => exact next_mirrors (onStack_mirrors OperandStack.drop_mirrors)
  | dup => exact next_mirrors (onStack_mirrors OperandStack.dup_mirrors)
  | print => exact next_mirrors print_mirrors
  | pushInt => exact next_mirrors (pushConstant_mirrors _ _ fun _ => rfl)
  | pushFloat => exact next_mirrors (pushConstant_mirrors _ _ fun _ => rfl)
  | pushBool b => exact next_mirrors (push_mirrors_of_not_reference rfl)
  | loadLocal =>
    apply (onLocals_mirrors (Locals.load_mirrors i.index)).bind
    rintro value other _ ⟨-⟩
    exact next_mirrors (push_mirrors value other)
  | storeLocal =>
    apply pop_mirrors.bind
    rintro value other _ ⟨-⟩
    exact next_mirrors (onLocals_mirrors (Locals.store_mirrors i.index value other))
  | stepLocal direction => exact next_mirrors (addToLocal_mirrors _ _)
  | intBinary operation =>
    have plain (a b : Int64) : (Value.int (operation.apply a b)).isReference = false := rfl
    have result : Mirrors (Twins past) [] _ _ Goes := next_mirrors (intBinary_mirrors plain)
    dsimp only
    split
    next => exact requireIntDivisor_mirrors.next fun _ _ => result
    next => exact result
  | negInt => exact popInt_mirrors.next fun n _ => next_mirrors (push_mirrors_of_not_reference rfl)
  | floatBinary operation =>
    have plain (a b : Double) : (Value.float (operation.apply a b)).isReference = false := rfl
    have result : Mirrors (Twins past) [] _ _ Goes := next_mirrors (floatBinary_mirrors plain)
    dsimp only
    split
    next => exact requireFloatDivisor_mirrors.next fun _ _ => result
    next => exact result
  | negFloat =>
    exact popFloat_mirrors.next fun x _ => next_mirrors (push_mirrors_of_not_reference rfl)
  | intToFloat =>
    exact popInt_mirrors.next fun n _ => next_mirrors (push_mirrors_of_not_reference rfl)
  | floatToInt =>
    exact popFloat_mirrors.next fun x _ => next_mirrors (push_mirrors_of_not_reference rfl)
  | not => exact popBool_mirrors.next fun b _ => next_mirrors (push_mirrors_of_not_reference rfl)
  | compareInt comparison => exact next_mirrors (intBinary_mirrors fun _ _ => rfl)
  | compareFloat comparison => exact next_mirrors (floatBinary_mirrors fun _ _ => rfl)
  | jump condition => exact jump_mirrors condition _
  | newArray => exact next_mirrors (newArray_mirrors i.index)
  | arrayLoad => exact next_mirrors arrayLoad_mirrors
  | arrayStore => exact next_mirrors arrayStore_mirrors
  | arrayLength => exact next_mirrors pushLength_mirrors
  | call => exact .pure (.call i.index)
  | ret =>
    apply pop_mirrors.bind
    rintro value other _ ⟨-⟩
    exact .pure (.leave (.some value other))
  | retVoid => exact .pure (.leave .none)

end Control

end Machine

end HotPath
