import HotPath.Machine.State

/-!
# Operations

What each operation does to a machine, apart from control: the operands it
takes, what it leaves, and the faults it raises. `perform` carries out one
instruction and answers with a `Transfer`, which says where control goes next.

An operand that has been popped belongs to the operation. Every way out of an
operation, faults included, either gives its operands back or passes them on.
-/

namespace HotPath

/-- Where control goes after an instruction. -/
inductive Transfer where
  /-- To the instruction that follows. -/
  | next
  /-- To an address of the same function. -/
  | goto (address : Nat)
  /-- Into another function, given by its index. -/
  | call (index : Nat)
  /-- Back to the caller, with a value or without. -/
  | leave (value : Option Value)
deriving DecidableEq, Repr, Inhabited

namespace IntOperation

/-- Integer arithmetic modulo `2 ^ 64`; quotients are cut off towards zero. -/
def apply : IntOperation → Int64 → Int64 → Int64
  | add, a, b => a + b
  | sub, a, b => a - b
  | mul, a, b => a * b
  | div, a, b => a / b
  | mod, a, b => a % b

/-- Whether the second operand must not be zero. -/
def isDivision : IntOperation → Bool
  | div | mod => true
  | _ => false

end IntOperation

namespace FloatOperation

def apply : FloatOperation → Double → Double → Double
  | add, a, b => a.add b
  | sub, a, b => a.sub b
  | mul, a, b => a.mul b
  | div, a, b => a.div b

/-- Whether the second operand must not be zero. -/
def isDivision : FloatOperation → Bool
  | div => true
  | _ => false

end FloatOperation

namespace Comparison

def ints : Comparison → Int64 → Int64 → Bool
  | eq, a, b => a = b
  | ne, a, b => a ≠ b
  | lt, a, b => a < b
  | le, a, b => a ≤ b
  | gt, a, b => b < a
  | ge, a, b => b ≤ a

/-- Only `ne` holds when one of the numbers is not a number. -/
def floats : Comparison → Double → Double → Bool
  | eq, a, b => a.numEq b
  | ne, a, b => !a.numEq b
  | lt, a, b => a.numLt b
  | le, a, b => a.numLe b
  | gt, a, b => b.numLt a
  | ge, a, b => b.numLe a

end Comparison

/-- The step that a direction stands for. -/
def Direction.amount : Direction → Int64
  | up => 1
  | down => -1

namespace Machine

/-- Pop an operand of one type. Any other operand is given back before the fault. -/
@[inline] def popAs {α : Type} (expected : Shape) (read? : Value → Option α) :
    Action Machine α := do
  let value ← pop
  match read? value with
  | some inner => return inner
  | none =>
    release value
    throw (.invalidValueType expected value.shape)

def popInt : Action Machine Int64 := popAs (.declared .int) Value.asInt?

def popFloat : Action Machine Double := popAs (.declared .float) Value.asFloat?

def popBool : Action Machine Bool := popAs (.declared .bool) Value.asBool?

/-- Pop an array; its reference passes to whoever pops it. -/
def popArray : Action Machine ArrayId := popAs .someArray Value.asArray?

/-- Fault if the top operand is a zero of the type that is divided. An operand of another type
is left for `popAs` to find. -/
def requireDivisor (isZero : Value → Bool) : Action Machine Unit := do
  let divisor ← peek
  if isZero divisor then throw .divisionByZero

/-- Whether a value is the integer zero. -/
def isIntZero : Value → Bool
  | .int n => n = 0
  | _ => false

/-- Whether a value is a float that equals zero. -/
def isFloatZero : Value → Bool
  | .float x => x.numEq Double.zero
  | _ => false

/-- Pop two integers, the second one first, and push what `result` makes of them. -/
@[inline] def intBinary (result : Int64 → Int64 → Value) : Action Machine Unit := do
  let b ← popInt
  let a ← popInt
  push (result a b)

/-- Pop two floats, the second one first, and push what `result` makes of them. -/
@[inline] def floatBinary (result : Double → Double → Value) : Action Machine Unit := do
  let b ← popFloat
  let a ← popFloat
  push (result a b)

/-- Push an entry of a table of constants. -/
def pushConstant {α : Type} (table : Array α) (index : Nat) (value : α → Value) :
    Action Machine Unit :=
  match table[index]? with
  | some constant => push (value constant)
  | none => throw (.invalidConstantIndex index)

/-- Print the top operand. -/
def print : Action Machine Unit := do
  let value ← pop
  let line ← Action.attempt (onHeap (Heap.textOf value))
  release value
  printLine (← Action.settle line)

/-- Add to the integer in a slot. -/
def addToLocal (index : Nat) (amount : Int64) : Action Machine Unit := do
  let n ← onLocals (Action.onLeft (Action.ofExcept fun l => l.getInt index))
  onLocals (Action.onLeft (Locals.setInt index (n + amount)))

/-- The length that was asked for, if an array may have it. -/
def arrayLength (limit : Nat) (requested : Int64) : Except Fault Nat :=
  if requested.toInt < 0 then .error (.arrayIndexOutOfBounds requested 0)
  else if limit < requested.toInt.toNat then .error (.arrayIndexOutOfBounds requested limit)
  else .ok requested.toInt.toNat

/-- Create an array of zeros. -/
def newArray [Numbering] (tag : Nat) : Action Machine Unit :=
  match ElementType.ofTag? tag with
  | none => throw (.unknownElementTag tag)
  | some type => do
    let requested ← popInt
    let length ← Action.ofExcept fun m => arrayLength m.limits.arrayLength requested
    let id ← onHeap fun h => let (id, h) := h.allocate (.zeros type length); .ok id h
    push (.array id)

/-- Read an element. -/
def arrayLoad : Action Machine Unit := do
  let index ← popInt
  let id ← popArray
  let element ← Action.attempt (onHeap (Heap.load id index))
  release (.array id)
  push (← Action.settle element)

/-- Pop an index and an array and store `value` there. The array is given back, the value is not. -/
def storeElement (value : Value) : Action Machine Unit := do
  let index ← popInt
  let id ← popArray
  let stored ← Action.attempt (onHeap (Heap.store id index value))
  release (.array id)
  Action.settle stored

/-- Write an element. A value that could not be stored is given back. -/
def arrayStore : Action Machine Unit := do
  let value ← pop
  match ← Action.attempt (storeElement value) with
  | .ok _ => return
  | .error fault =>
    release value
    throw fault

/-- Push the length of an array. -/
def pushLength : Action Machine Unit := do
  let id ← popArray
  let length ← Action.attempt (onHeap (Heap.length id))
  release (.array id)
  push (.int (Int64.ofNat (← Action.settle length)))

/-- Where a jump leads, if that is inside the function or just behind its last instruction. -/
def jumpTarget (i : Instruction) (address length : Nat) : Except Fault Nat :=
  let target := i.target address
  if 0 ≤ target ∧ target ≤ length then .ok target.toNat
  else .error (.invalidJumpTarget address target length)

/-- Take a jump if its condition holds. The target matters only when the jump is taken. -/
def jump (condition : Condition) (target : Except Fault Nat) : Action Machine Transfer := do
  match condition with
  | .always => return .goto (← Action.settle target)
  | .when expected =>
    if (← popBool) = expected then return .goto (← Action.settle target) else return .next

/-- Carry out one instruction, found at `address` of a function with `length` instructions. -/
def perform [Numbering] (p : Program) (i : Instruction) (address length : Nat) :
    Action Machine Transfer := do
  match i.opcode with
  | .nop => return .next
  | .pop => onStack OperandStack.drop; return .next
  | .dup => onStack OperandStack.dup; return .next
  | .print => print; return .next
  | .pushInt => pushConstant p.intConstants i.index .int; return .next
  | .pushFloat => pushConstant p.floatConstants i.index .float; return .next
  | .pushBool b => push (.bool b); return .next
  | .loadLocal => push (← onLocals (Locals.load i.index)); return .next
  | .storeLocal =>
    let value ← pop
    onLocals (Locals.store i.index value)
    return .next
  | .stepLocal direction => addToLocal i.index direction.amount; return .next
  | .intBinary operation =>
    if operation.isDivision then requireDivisor isIntZero
    intBinary fun a b => .int (operation.apply a b)
    return .next
  | .negInt => push (.int (-(← popInt))); return .next
  | .floatBinary operation =>
    if operation.isDivision then requireDivisor isFloatZero
    floatBinary fun a b => .float (operation.apply a b)
    return .next
  | .negFloat => push (.float (← popFloat).neg); return .next
  | .intToFloat => push (.float (.ofInt64 (← popInt))); return .next
  | .floatToInt => push (.int (← popFloat).truncate); return .next
  | .not => push (.bool (!(← popBool))); return .next
  | .compareInt comparison => intBinary fun a b => .bool (comparison.ints a b); return .next
  | .compareFloat comparison => floatBinary fun a b => .bool (comparison.floats a b); return .next
  | .jump condition => jump condition (jumpTarget i address length)
  | .newArray => newArray i.index; return .next
  | .arrayLoad => arrayLoad; return .next
  | .arrayStore => arrayStore; return .next
  | .arrayLength => pushLength; return .next
  | .call => return .call i.index
  | .ret => return .leave (some (← pop))
  | .retVoid => return .leave none

end Machine

end HotPath
