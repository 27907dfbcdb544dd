import HotPath.Code.Error
import HotPath.Code.Opcode

/-!
# Instructions

An instruction is an operation with a 24-bit operand. It is written as a
record of four bytes: the byte of the operation, then the operand with its
high byte first.

The same 24 bits serve as an index and as a signed distance. `Instruction.make`
keeps the low 24 bits of any integer, so a distance survives exactly when it
lies in the signed 24-bit range.
-/

namespace HotPath

/-- The four bytes of an instruction. -/
structure Record where
  code : UInt8
  high : UInt8
  middle : UInt8
  low : UInt8
deriving DecidableEq, Repr, Inhabited

/-- The bytes of a record, in order. -/
def Record.bytes (r : Record) : List UInt8 := [r.code, r.high, r.middle, r.low]

/-- The number that the last three bytes of a record make up. -/
@[inline] def Record.operand (r : Record) : BitVec 24 :=
  BitVec.ofNatLT (0x10000 * r.high.toNat + 0x100 * r.middle.toNat + r.low.toNat) (by
    have := r.high.toNat_lt
    have := r.middle.toNat_lt
    have := r.low.toNat_lt
    omega)

/-- An operation with its operand. -/
structure Instruction where
  opcode : Opcode
  operand : BitVec 24
deriving DecidableEq, Repr, Inhabited

/-- The signed reading of the low 24 bits of a word. -/
def signExtend24 (word : UInt32) : Int := (BitVec.ofNat 24 word.toNat).toInt

namespace Instruction

/-- The most negative distance that an operand holds. -/
def minOffset : Int := -0x800000

/-- The most positive distance that an operand holds. -/
def maxOffset : Int := 0x7fffff

/-- An instruction with the low 24 bits of `operand`. -/
def make (opcode : Opcode) (operand : Int := 0) : Instruction :=
  ⟨opcode, BitVec.ofInt 24 operand⟩

/-- The operand as an index. -/
def index (i : Instruction) : Nat := i.operand.toNat

/-- The operand as a signed distance. -/
def offset (i : Instruction) : Int :=
  if i.index < 0x800000 then i.index else (i.index : Int) - 0x1000000

theorem offset_eq_toInt (i : Instruction) : i.offset = i.operand.toInt := by
  unfold offset index
  rw [BitVec.toInt_eq_toNat_cond]
  by_cases low : i.operand.toNat < 0x800000
  · rw [if_pos low, if_pos (by omega)]
  · rw [if_neg low, if_neg (by omega)]
    rfl

/-- Where a jump at `address` leads. -/
def target (i : Instruction) (address : Nat) : Int := address + i.offset

/-- Where a jump leads when its address may be any 64-bit word. The sum is kept to 64 bits and read
as signed, which changes nothing for an address that a stream can have. -/
def wordTarget (i : Instruction) (address : UInt64) : Int64 :=
  Int64.ofInt (i.target address.toNat)

theorem toInt_wordTarget (i : Instruction) {address : UInt64}
    (near : address.toNat < 0x4000000000000000) :
    (i.wordTarget address).toInt = i.target address.toNat := by
  have low : -0x800000 ≤ i.operand.toInt := BitVec.le_toInt i.operand
  have high : i.operand.toInt < 0x800000 := BitVec.toInt_lt
  have size : (Int64.size : Int) = 0x10000000000000000 := rfl
  simp only [wordTarget, target, offset_eq_toInt, Int64.toInt_ofInt]
  exact Int.bmod_eq_of_le (by omega) (by omega)

/-- The high, middle and low byte of an operand. -/
def operandBytes (operand : BitVec 24) : UInt8 × UInt8 × UInt8 :=
  (UInt8.ofNat (operand.toNat / 0x10000), UInt8.ofNat (operand.toNat / 0x100),
    UInt8.ofNat operand.toNat)

/-- The record of an instruction. -/
def encode (i : Instruction) : Record :=
  let (high, middle, low) := operandBytes i.operand
  ⟨i.opcode.byte, high, middle, low⟩

/-- Read the record found at `address`. -/
@[inline] def decode (r : Record) (address : Nat) : Except CodeError Instruction :=
  match Opcode.ofByte? r.code with
  | some opcode => .ok ⟨opcode, r.operand⟩
  | none => .error (.unknownOpcode r.code address)

/-- The instruction as it appears in a listing: the operand is left out where it has no meaning,
and a distance is written with its sign. -/
def text (i : Instruction) : String :=
  match i.opcode.kind with
  | .none => i.opcode.mnemonic
  | .relativeJump => i.opcode.mnemonic ++ " " ++ Text.signed i.offset
  | _ => i.opcode.mnemonic ++ " " ++ toString i.index

end Instruction

end HotPath
