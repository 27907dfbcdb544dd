import HotPath.Fusion.Segment

/-!
# Fusing a function

`Function.fuse` replaces every fusible span of a function by a single
instruction and leads every jump to where its target has gone. It refuses code
that cannot be decoded and jumps that leave the function, so whatever it
returns stays inside its own stream. A function without a fusible span comes
back as it was.
-/

namespace HotPath

/-- A function after fusion. -/
structure Fusion where
  function : Function
  /-- The number of spans that were fused. -/
  count : Nat
deriving DecidableEq, Repr

namespace Fusion

/-- Whether there was anything to fuse. -/
def changed (f : Fusion) : Bool := 0 < f.count

/-- Where the jumps of a stream lead, with the first instruction at `address`. A jump that
leaves a stream of `length` instructions is refused, the one with the lowest address first. -/
def targets (length : Nat) : (address : Nat) → List Instruction → Except CodeError (List Nat)
  | _, [] => .ok []
  | address, i :: rest =>
    if i.opcode.isJump then
      let target := i.target address
      if 0 ≤ target ∧ target ≤ length then do
        return target.toNat :: (← targets length (address + 1) rest)
      else .error (.jumpOutOfRange address target length)
    else targets length (address + 1) rest

/-- The instruction that a segment becomes. It moves from `source` to `destination`; a jump is
led to where its target goes by the table of destinations. -/
def emit (destinations : Array Nat) (source destination : Nat) :
    Segment → Except CodeError Instruction
  | .fused direction slot => .ok ⟨.stepLocal direction, slot⟩
  | .kept i =>
    if i.opcode.isJump then
      let offset : Int := destinations[(i.target source).toNat]?.getD 0 - destination
      if Instruction.minOffset ≤ offset ∧ offset ≤ Instruction.maxOffset then
        .ok (.make i.opcode offset)
      else .error (.offsetOverflow offset)
    else .ok i

/-- The instructions that segments become, the first of them moving from `source` to
`destination`. -/
def emitAll (destinations : Array Nat) :
    (source destination : Nat) → List Segment → Except CodeError (List Instruction)
  | _, _, [] => .ok []
  | source, destination, segment :: rest => do
    let first ← emit destinations source destination segment
    let others ← emitAll destinations (source + segment.length) (destination + 1) rest
    return first :: others

end Fusion

/-- Fuse every fusible span of a function. -/
def Function.fuse (p : Program) (f : Function) : Except CodeError Fusion := do
  let instructions ← f.code.decode
  let targets ← Fusion.targets instructions.length 0 instructions
  let segments := Segment.segments p.intConstants targets 0 instructions
  match segments.countP Segment.isFused with
  | 0 => return ⟨f, 0⟩
  | count =>
    let destinations := (Segment.destinations 0 segments).toArray
    let fused ← Fusion.emitAll destinations 0 0 segments
    return ⟨f.withCode (.ofList fused), count⟩

end HotPath
