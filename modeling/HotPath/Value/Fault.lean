import HotPath.Text.Field
import HotPath.Value.Basic

/-!
# Faults

A `Fault` says why an execution could not go on. Nothing recovers from one
inside the machine: the run ends, everything it holds is given back, and the
host receives the fault. `Fault.code` maps it to the closed set of result
codes, `Fault.message` words it.
-/

namespace HotPath

/-- How an execution ended, in one word. -/
inductive ResultCode where
  | success
  | divisionByZero
  | arrayIndexOutOfBounds
  | stackUnderflow
  | invalidOpcode
  | invalidHeapId
  | negativeRefCount
  | invalidFunctionIndex
  | invalidConstantIndex
  | invalidLocalIndex
  | invalidArrayType
  | invalidValueType
  | callStackOverflow
  | stackOverflow
deriving DecidableEq, Repr, Inhabited

namespace ResultCode

/-- Every code, in order. -/
def all : List ResultCode :=
  [success, divisionByZero, arrayIndexOutOfBounds, stackUnderflow, invalidOpcode, invalidHeapId,
    negativeRefCount, invalidFunctionIndex, invalidConstantIndex, invalidLocalIndex,
    invalidArrayType, invalidValueType, callStackOverflow, stackOverflow]

def isSuccess (code : ResultCode) : Bool := code = success

def text : ResultCode → String
  | success => "SUCCESS"
  | divisionByZero => "DIVISION_BY_ZERO"
  | arrayIndexOutOfBounds => "ARRAY_INDEX_OUT_OF_BOUNDS"
  | stackUnderflow => "STACK_UNDERFLOW"
  | invalidOpcode => "INVALID_OPCODE"
  | invalidHeapId => "INVALID_HEAP_ID"
  | negativeRefCount => "NEGATIVE_REF_COUNT"
  | invalidFunctionIndex => "INVALID_FUNCTION_INDEX"
  | invalidConstantIndex => "INVALID_CONSTANT_INDEX"
  | invalidLocalIndex => "INVALID_LOCAL_INDEX"
  | invalidArrayType => "INVALID_ARRAY_TYPE"
  | invalidValueType => "INVALID_VALUE_TYPE"
  | callStackOverflow => "CALL_STACK_OVERFLOW"
  | stackOverflow => "STACK_OVERFLOW"

end ResultCode

/-- Why an execution could not go on. -/
inductive Fault where
  /-- An integer or a float was divided by zero, or a remainder by zero was asked for. -/
  | divisionByZero
  /-- An array has no element at this index. -/
  | arrayIndexOutOfBounds (index : Int64) (length : Nat)
  /-- The frame has fewer operands than it consumes. -/
  | stackUnderflow
  /-- A record does not start with the byte of an opcode. -/
  | invalidOpcode (byte : UInt8) (address : Nat)
  /-- A jump leaves the function. -/
  | invalidJumpTarget (address : Nat) (target : Int) (length : Nat)
  /-- The heap does not hold this array, and its slot has not outlived it. -/
  | invalidHeapId (id : ArrayId)
  /-- A reference was given back to an array that has none left. -/
  | negativeRefCount (id : ArrayId)
  /-- The program has no function at this index. -/
  | invalidFunctionIndex (index : Nat)
  /-- The constant table has no entry at this index. -/
  | invalidConstantIndex (index : Nat)
  /-- The frame has no local slot at this index. -/
  | invalidLocalIndex (index count : Nat)
  /-- An element type does not exist, or an element is not of the array's type. -/
  | invalidArrayType (detail : String)
  /-- An operand or argument is not of the type that the operation takes. -/
  | invalidValueType (expected found : Shape)
  /-- A call would nest deeper than the limit. -/
  | callStackOverflow (limit : Nat)
  /-- The operand stack would grow beyond the limit. -/
  | stackOverflow (limit : Nat)
deriving DecidableEq, Repr, Inhabited

namespace Fault

/-- The operation that creates arrays knows no element type with this tag. -/
def unknownElementTag (tag : Nat) : Fault :=
  invalidArrayType ("unknown element type tag " ++ toString tag)

/-- `value` is not an element of an array with this element type. -/
def elementMismatch (value : Value) (element : ElementType) : Fault :=
  invalidArrayType ("cannot store " ++ value.shape.text ++ " into " ++ element.text ++ " array")

/-- The code that a fault is reported as. Leaving the function by a jump counts as running
an opcode that does not exist. -/
def code : Fault → ResultCode
  | divisionByZero => .divisionByZero
  | arrayIndexOutOfBounds .. => .arrayIndexOutOfBounds
  | stackUnderflow => .stackUnderflow
  | invalidOpcode .. => .invalidOpcode
  | invalidJumpTarget .. => .invalidOpcode
  | invalidHeapId _ => .invalidHeapId
  | negativeRefCount _ => .negativeRefCount
  | invalidFunctionIndex _ => .invalidFunctionIndex
  | invalidConstantIndex _ => .invalidConstantIndex
  | invalidLocalIndex .. => .invalidLocalIndex
  | invalidArrayType _ => .invalidArrayType
  | invalidValueType .. => .invalidValueType
  | callStackOverflow _ => .callStackOverflow
  | stackOverflow _ => .stackOverflow

/-- The wording of a fault. -/
def message : Fault → String
  | divisionByZero => "division by zero"
  | arrayIndexOutOfBounds index length =>
    "index " ++ toString index.toInt ++ " out of bounds for array of length " ++ toString length
  | stackUnderflow => "operand stack underflow"
  | invalidOpcode byte address =>
    "invalid opcode 0x" ++ Text.hexByte byte ++ " at address " ++ toString address
  | invalidJumpTarget address target length =>
    "jump from " ++ toString address ++ " to " ++ toString target ++ " leaves the function (" ++
      toString length ++ " instructions)"
  | invalidHeapId id => "invalid heap id " ++ id.text
  | negativeRefCount id => "negative reference count for heap id " ++ id.text
  | invalidFunctionIndex index => "invalid function index " ++ toString index
  | invalidConstantIndex index => "invalid constant index " ++ toString index
  | invalidLocalIndex index count =>
    "invalid local index " ++ toString index ++ " (frame has " ++ toString count ++ " slots)"
  | invalidArrayType detail => "invalid array element type: " ++ detail
  | invalidValueType expected found =>
    "invalid value type: expected " ++ expected.text ++ ", found " ++ found.text
  | callStackOverflow limit => "call stack overflow (limit " ++ toString limit ++ ")"
  | stackOverflow limit => "operand stack overflow (limit " ++ toString limit ++ ")"

theorem code_ne_success (fault : Fault) : fault.code ≠ .success := by
  cases fault <;> simp [code]

end Fault

end HotPath
