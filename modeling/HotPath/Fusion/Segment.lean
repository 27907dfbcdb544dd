import HotPath.Code.Function

/-!
# Fusible spans

Stepping a local by one takes four instructions: load it, push the constant
one, add or subtract, store it back. Such a span can be fused into a single
instruction, unless a jump leads into the middle of it. `segments` cuts a
stream into the spans that are fused and the instructions that are kept, from
the front.

`relocate` says where each address of the stream goes when every segment
becomes one instruction: the addresses inside a span go to its start, and the
end of the stream to the end. `destinations` is the table of all these addresses.
-/

namespace HotPath

/-- A piece of a stream that becomes one instruction. -/
inductive Segment where
  | kept (instruction : Instruction)
  /-- Four instructions that step a slot. -/
  | fused (direction : Direction) (slot : BitVec 24)
deriving DecidableEq, Repr, Inhabited

namespace Segment

/-- The number of instructions in a fusible span. -/
def spanLength : Nat := 4

/-- The number of instructions that a segment stands for. -/
def length : Segment → Nat
  | kept _ => 1
  | fused .. => spanLength

def isFused : Segment → Bool
  | kept _ => false
  | fused .. => true

/-- The direction in which four instructions step a slot, if that is what they do. -/
def direction? (constants : Array Int64) (load one change store : Instruction) :
    Option Direction :=
  if load.opcode = .loadLocal ∧ one.opcode = .pushInt ∧ store.opcode = .storeLocal ∧
      load.operand = store.operand ∧ constants[one.index]? = some 1 then
    match change.opcode with
    | .intBinary .add => some .up
    | .intBinary .sub => some .down
    | _ => none
  else none

/-- Whether one of the targets lies inside the span that starts at an address, behind its first
instruction. -/
def entersSpan (targets : List Nat) (address : Nat) : Bool :=
  targets.any fun target => address < target ∧ target < address + spanLength

/-- Cut a stream whose first instruction is at `address` into segments. -/
def segments (constants : Array Int64) (targets : List Nat) :
    (address : Nat) → List Instruction → List Segment
  | address, load :: one :: change :: store :: rest =>
    match direction? constants load one change store with
    | some direction =>
      if entersSpan targets address then
        kept load :: segments constants targets (address + 1) (one :: change :: store :: rest)
      else fused direction load.operand :: segments constants targets (address + spanLength) rest
    | none =>
      kept load :: segments constants targets (address + 1) (one :: change :: store :: rest)
  | address, first :: rest => kept first :: segments constants targets (address + 1) rest
  | _, [] => []

/-- Where an address goes when every segment becomes one instruction. -/
def relocate : List Segment → (address : Nat) → Nat
  | [], _ => 0
  | segment :: rest, address =>
    if address < segment.length then 0 else relocate rest (address - segment.length) + 1

/-- Where the addresses of a stream go, in order and the end included, if its first segment goes
to `destination`. -/
def destinations : (destination : Nat) → List Segment → List Nat
  | destination, [] => [destination]
  | destination, segment :: rest =>
    List.replicate segment.length destination ++ destinations (destination + 1) rest

end Segment

end HotPath
