/-!
# Operation codes

The operations of the machine, one byte each. Operations that differ only in
what they compute share a constructor: the six integer comparisons are
`compareInt` of a `Comparison`, the three jumps are `jump` of a `Condition`.

`byte` and `ofByte?` are inverse to each other; `kind` says how an operation
reads the operand that stands beside it in an instruction.
-/

namespace HotPath

/-- The six ways to compare two numbers. -/
inductive Comparison where
  | eq
  | ne
  | lt
  | le
  | gt
  | ge
deriving DecidableEq, Repr, Inhabited

/-- Integer operations on two operands. -/
inductive IntOperation where
  | add
  | sub
  | mul
  | div
  | mod
deriving DecidableEq, Repr, Inhabited

/-- Float operations on two operands. -/
inductive FloatOperation where
  | add
  | sub
  | mul
  | div
deriving DecidableEq, Repr, Inhabited

/-- When a jump is taken. -/
inductive Condition where
  | always
  /-- Taken when the popped truth value is this one. -/
  | when (expected : Bool)
deriving DecidableEq, Repr, Inhabited

/-- Which way an integer local is stepped in place. -/
inductive Direction where
  | up
  | down
deriving DecidableEq, Repr, Inhabited

/-- An operation of the machine. -/
inductive Opcode where
  /-- Do nothing. -/
  | nop
  /-- Discard the top operand. -/
  | pop
  /-- Push the top operand once more. -/
  | dup
  /-- Pop an operand and write its text as a line of output. -/
  | print
  /-- Push an entry of the integer constants. -/
  | pushInt
  /-- Push an entry of the float constants. -/
  | pushFloat
  /-- Push a truth value. -/
  | pushBool (b : Bool)
  /-- Push a copy of a local. -/
  | loadLocal
  /-- Pop into a local. -/
  | storeLocal
  /-- Add or subtract one in an integer local. -/
  | stepLocal (direction : Direction)
  /-- Combine two integers. -/
  | intBinary (operation : IntOperation)
  /-- Negate an integer. -/
  | negInt
  /-- Combine two floats. -/
  | floatBinary (operation : FloatOperation)
  /-- Negate a float. -/
  | negFloat
  /-- Turn an integer into the nearest float. -/
  | intToFloat
  /-- Drop the fraction of a float. -/
  | floatToInt
  /-- Negate a truth value. -/
  | not
  /-- Compare two integers. -/
  | compareInt (comparison : Comparison)
  /-- Compare two floats. -/
  | compareFloat (comparison : Comparison)
  /-- Jump by the operand, counted from the jump itself. -/
  | jump (condition : Condition)
  /-- Pop a length and push a new array of zeros. -/
  | newArray
  /-- Pop an index and an array, push the element. -/
  | arrayLoad
  /-- Pop a value, an index and an array, store the element. -/
  | arrayStore
  /-- Pop an array, push its length. -/
  | arrayLength
  /-- Call a function of the program. -/
  | call
  /-- Return the top operand to the caller. -/
  | ret
  /-- Return without a value. -/
  | retVoid
deriving DecidableEq, Repr, Inhabited

/-- How an operation reads its operand. -/
inductive OperandKind where
  | none
  | local
  | intConstant
  | floatConstant
  | function
  | elementType
  | relativeJump
deriving DecidableEq, Repr, Inhabited

namespace Opcode

/-- The byte that stands for an operation. -/
def byte : Opcode → UInt8
  | nop => 0x00
  | pop => 0x01
  | dup => 0x02
  | print => 0x03
  | pushInt => 0x10
  | pushFloat => 0x11
  | pushBool true => 0x12
  | pushBool false => 0x13
  | loadLocal => 0x20
  | storeLocal => 0x21
  | stepLocal .up => 0x22
  | stepLocal .down => 0x23
  | intBinary .add => 0x30
  | intBinary .sub => 0x31
  | intBinary .mul => 0x32
  | intBinary .div => 0x33
  | intBinary .mod => 0x34
  | negInt => 0x35
  | floatBinary .add => 0x38
  | floatBinary .sub => 0x39
  | floatBinary .mul => 0x3a
  | floatBinary .div => 0x3b
  | negFloat => 0x3c
  | intToFloat => 0x40
  | floatToInt => 0x41
  | not => 0x42
  | compareInt .eq => 0x50
  | compareInt .ne => 0x51
  | compareInt .lt => 0x52
  | compareInt .le => 0x53
  | compareInt .gt => 0x54
  | compareInt .ge => 0x55
  | compareFloat .eq => 0x58
  | compareFloat .ne => 0x59
  | compareFloat .lt => 0x5a
  | compareFloat .le => 0x5b
  | compareFloat .gt => 0x5c
  | compareFloat .ge => 0x5d
  | jump .always => 0x60
  | jump (.when true) => 0x61
  | jump (.when false) => 0x62
  | newArray => 0x70
  | arrayLoad => 0x71
  | arrayStore => 0x72
  | arrayLength => 0x73
  | call => 0x80
  | ret => 0x81
  | retVoid => 0x82

/-- The operation that a byte stands for. -/
def ofByte? : UInt8 → Option Opcode
  | 0x00 => some nop
  | 0x01 => some pop
  | 0x02 => some dup
  | 0x03 => some print
  | 0x10 => some pushInt
  | 0x11 => some pushFloat
  | 0x12 => some (pushBool true)
  | 0x13 => some (pushBool false)
  | 0x20 => some loadLocal
  | 0x21 => some storeLocal
  | 0x22 => some (stepLocal .up)
  | 0x23 => some (stepLocal .down)
  | 0x30 => some (intBinary .add)
  | 0x31 => some (intBinary .sub)
  | 0x32 => some (intBinary .mul)
  | 0x33 => some (intBinary .div)
  | 0x34 => some (intBinary .mod)
  | 0x35 => some negInt
  | 0x38 => some (floatBinary .add)
  | 0x39 => some (floatBinary .sub)
  | 0x3a => some (floatBinary .mul)
  | 0x3b => some (floatBinary .div)
  | 0x3c => some negFloat
  | 0x40 => some intToFloat
  | 0x41 => some floatToInt
  | 0x42 => some not
  | 0x50 => some (compareInt .eq)
  | 0x51 => some (compareInt .ne)
  | 0x52 => some (compareInt .lt)
  | 0x53 => some (compareInt .le)
  | 0x54 => some (compareInt .gt)
  | 0x55 => some (compareInt .ge)
  | 0x58 => some (compareFloat .eq)
  | 0x59 => some (compareFloat .ne)
  | 0x5a => some (compareFloat .lt)
  | 0x5b => some (compareFloat .le)
  | 0x5c => some (compareFloat .gt)
  | 0x5d => some (compareFloat .ge)
  | 0x60 => some (jump .always)
  | 0x61 => some (jump (.when true))
  | 0x62 => some (jump (.when false))
  | 0x70 => some newArray
  | 0x71 => some arrayLoad
  | 0x72 => some arrayStore
  | 0x73 => some arrayLength
  | 0x80 => some call
  | 0x81 => some ret
  | 0x82 => some retVoid
  | _ => none

/-- The name of an operation in a listing. -/
def mnemonic : Opcode → String
  | nop => "NOP"
  | pop => "POP"
  | dup => "DUP"
  | print => "PRINT"
  | pushInt => "PUSH_INT"
  | pushFloat => "PUSH_FLOAT"
  | pushBool true => "PUSH_TRUE"
  | pushBool false => "PUSH_FALSE"
  | loadLocal => "LOAD_LOCAL"
  | storeLocal => "STORE_LOCAL"
  | stepLocal .up => "INC_LOCAL"
  | stepLocal .down => "DEC_LOCAL"
  | intBinary .add => "ADD_INT"
  | intBinary .sub => "SUB_INT"
  | intBinary .mul => "MUL_INT"
  | intBinary .div => "DIV_INT"
  | intBinary .mod => "MOD_INT"
  | negInt => "NEG_INT"
  | floatBinary .add => "ADD_FLOAT"
  | floatBinary .sub => "SUB_FLOAT"
  | floatBinary .mul => "MUL_FLOAT"
  | floatBinary .div => "DIV_FLOAT"
  | negFloat => "NEG_FLOAT"
  | intToFloat => "INT_TO_FLOAT"
  | floatToInt => "FLOAT_TO_INT"
  | not => "NOT"
  | compareInt .eq => "EQ_INT"
  | compareInt .ne => "NE_INT"
  | compareInt .lt => "LT_INT"
  | compareInt .le => "LE_INT"
  | compareInt .gt => "GT_INT"
  | compareInt .ge => "GE_INT"
  | compareFloat .eq => "EQ_FLOAT"
  | compareFloat .ne => "NE_FLOAT"
  | compareFloat .lt => "LT_FLOAT"
  | compareFloat .le => "LE_FLOAT"
  | compareFloat .gt => "GT_FLOAT"
  | compareFloat .ge => "GE_FLOAT"
  | jump .always => "JUMP"
  | jump (.when true) => "JUMP_IF_TRUE"
  | jump (.when false) => "JUMP_IF_FALSE"
  | newArray => "NEW_ARRAY"
  | arrayLoad => "ARRAY_LOAD"
  | arrayStore => "ARRAY_STORE"
  | arrayLength => "ARRAY_LENGTH"
  | call => "CALL"
  | ret => "RETURN"
  | retVoid => "RETURN_VOID"

/-- How an operation reads its operand. -/
def kind : Opcode → OperandKind
  | pushInt => .intConstant
  | pushFloat => .floatConstant
  | loadLocal | storeLocal | stepLocal _ => .local
  | jump _ => .relativeJump
  | newArray => .elementType
  | call => .function
  | _ => .none

/-- Every operation, ordered by its byte. -/
def all : List Opcode :=
  (List.range 256).filterMap fun byte => ofByte? (UInt8.ofNat byte)

/-- The operation with a mnemonic. -/
def ofMnemonic? (mnemonic : String) : Option Opcode :=
  all.find? fun opcode => opcode.mnemonic = mnemonic

/-- Whether the operand is a distance to jump. -/
def isJump (opcode : Opcode) : Bool := opcode.kind = .relativeJump

theorem ofByte?_byte (opcode : Opcode) : ofByte? opcode.byte = some opcode := by
  rcases opcode with _ | _ | _ | _ | _ | _ | (_ | _) | _ | _ | (_ | _) |
    (_ | _ | _ | _ | _) | _ | (_ | _ | _ | _) | _ | _ | _ | _ |
    (_ | _ | _ | _ | _ | _) | (_ | _ | _ | _ | _ | _) | (_ | _ | _) <;> rfl

theorem byte_of_ofByte? {byte : UInt8} {opcode : Opcode} (found : ofByte? byte = some opcode) :
    opcode.byte = byte := by
  unfold ofByte? at found
  split at found <;> cases found <;> rfl

end Opcode

end HotPath
