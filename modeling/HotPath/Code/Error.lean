import HotPath.Text.Field

/-!
# Malformed code

What can be wrong with a stream of instructions, or with a change to one.
These are mistakes of whoever made the code. A machine that runs into bad code
reports a `Fault` instead.
-/

namespace HotPath

/-- What is wrong with a stream of instructions. -/
inductive CodeError where
  /-- There is no whole instruction at this address to change. -/
  | addressOutOfRange (address emitted : Nat)
  /-- A record does not start with the byte of an opcode. -/
  | unknownOpcode (byte : UInt8) (address : Nat)
  /-- The last record is incomplete. -/
  | truncatedStream (bytes : Nat)
  /-- A jump leaves the stream. -/
  | jumpOutOfRange (address : Nat) (target : Int) (length : Nat)
  /-- A jump reaches too far for the operand of an instruction. -/
  | offsetOverflow (offset : Int)
deriving DecidableEq, Repr, Inhabited

namespace CodeError

/-- The wording of an error. -/
def message : CodeError → String
  | addressOutOfRange address emitted =>
    "address " ++ toString address ++ " out of range (" ++ toString emitted ++
      " instructions emitted)"
  | unknownOpcode byte address =>
    "unknown opcode 0x" ++ Text.hexByte byte ++ " at address " ++ toString address
  | truncatedStream bytes =>
    "instruction stream of " ++ toString bytes ++ " bytes is not a whole number of instructions"
  | jumpOutOfRange address target length =>
    "jump at " ++ toString address ++ " targets " ++ toString target ++ ", outside 0..=" ++
      toString length
  | offsetOverflow offset => "jump offset " ++ toString offset ++ " does not fit in 24 bits"

end CodeError

end HotPath
