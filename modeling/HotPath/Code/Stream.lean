import HotPath.Code.Instruction

/-!
# Streams of instructions

`Code` is a sequence of bytes, four to an instruction. It may come from
anywhere, so it need not be well formed: the last record may be incomplete and
a record may start with a byte that is no opcode. There are two ways to read
it. `decode` reads all of it and fails unless everything is well formed;
`recordAt?` picks out one whole record by its address and looks at nothing
else. Addresses count instructions. An address of a stream is a number like any other;
`fetch` is the same reader for whoever may pass any machine word as an address.

Code is also written here: `push` appends an instruction and `patch` replaces the
operand of one that is already there, which is how a forward jump gets its
distance.
-/

namespace HotPath

/-- A stream of instructions, as bytes. -/
structure Code where
  bytes : Array UInt8
deriving DecidableEq, Repr, Inhabited

namespace Code

/-- The stream without any instruction. -/
def empty : Code := ⟨#[]⟩

/-- The number of whole instructions. -/
def instructionCount (code : Code) : Nat := code.bytes.size / 4

def isEmpty (code : Code) : Bool := code.bytes.isEmpty

/-- The record at an address, if it is there in full. -/
@[inline] def recordAt? (code : Code) (address : Nat) : Option Record :=
  if _inside : 4 * address + 3 < code.bytes.size then
    some ⟨code.bytes[4 * address], code.bytes[4 * address + 1], code.bytes[4 * address + 2],
      code.bytes[4 * address + 3]⟩
  else none

/-- How a build of the program adds machine words. -/
inductive Arithmetic where
  /-- A sum that does not fit stops the execution. -/
  | checked
  /-- A sum that does not fit loses its highest bit. -/
  | wrapping
deriving DecidableEq, Repr

/-- The execution was stopped by a sum that does not fit into a machine word. -/
structure Overflow where
deriving DecidableEq, Repr

/-- The sum of two words. -/
def Arithmetic.add : Arithmetic → UInt64 → UInt64 → Except Overflow UInt64
  | checked, a, b => if a.toNat + b.toNat < UInt64.size then .ok (a + b) else .error {}
  | wrapping, a, b => .ok (a + b)

/-- The bytes from `start` up to and not including `stop`, if that is a part of the stream. -/
def slice? (code : Code) (start stop : UInt64) : Option (List UInt8) :=
  if start ≤ stop ∧ stop.toNat ≤ code.bytes.size then
    some (code.bytes.extract start.toNat stop.toNat).toList
  else none

/-- Decode records one after another, the first of them at `address`. -/
def decodeFrom (address : Nat) : List UInt8 → Except CodeError (List Instruction)
  | code :: high :: middle :: low :: rest => do
    let first ← Instruction.decode ⟨code, high, middle, low⟩ address
    let others ← decodeFrom (address + 1) rest
    return first :: others
  | _ => .ok []

/-- Decode the whole stream. An incomplete last record is reported first, then the lowest
record that does not start with an opcode. -/
def decode (code : Code) : Except CodeError (List Instruction) :=
  if code.bytes.size % 4 = 0 then decodeFrom 0 code.bytes.toList
  else .error (.truncatedStream code.bytes.size)

/-- Append an instruction. -/
def push (code : Code) (i : Instruction) : Code :=
  ⟨code.bytes ++ i.encode.bytes⟩

/-- Append an instruction made of an operation and the low 24 bits of `operand`. -/
def emit (code : Code) (opcode : Opcode) (operand : Int := 0) : Code :=
  code.push (.make opcode operand)

/-- The stream of a list of instructions. -/
def ofList (instructions : List Instruction) : Code :=
  instructions.foldl push empty

/-- Replace the operand of the instruction at `address` by the low 24 bits of `operand`. -/
def patch (code : Code) (address : Nat) (operand : Int) : Except CodeError Code :=
  if address < code.instructionCount then
    let (high, middle, low) := Instruction.operandBytes (BitVec.ofInt 24 operand)
    .ok ⟨((code.bytes.setIfInBounds (4 * address + 1) high).setIfInBounds (4 * address + 2)
      middle).setIfInBounds (4 * address + 3) low⟩
  else .error (.addressOutOfRange address code.instructionCount)

/-- The operation of the last whole instruction. -/
def lastOpcode? (code : Code) : Option Opcode :=
  if code.instructionCount = 0 then none
  else (code.recordAt? (code.instructionCount - 1)).bind fun r => Opcode.ofByte? r.code

end Code

end HotPath
