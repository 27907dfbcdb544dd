import HotPath.Code.Function

/-!
# Listings

The text form of functions and programs. Each whole record has a line with
its address; a record that does not start with an opcode is shown as a byte.
After the instruction comes what its operand refers to: the address that a
jump leads to, and, when the program is at hand, the constant or the name of
the function.
-/

namespace HotPath

namespace Function

/-- The first line of a function's listing. -/
def heading (f : Function) : String :=
  let parameters := f.parameters.map fun p => p.name ++ ": " ++ p.type.text
  "fn " ++ f.name ++ "(" ++ String.intercalate ", " parameters ++ ") -> " ++ f.result.text ++
    " [locals=" ++ toString f.localCount ++ "]"

/-- What the operand of an instruction at `address` refers to. -/
def remark? (program : Option Program) (i : Instruction) (address : Nat) : Option String :=
  match i.opcode.kind with
  | .relativeJump => some ("-> " ++ Text.zeroPadded 4 (i.target address))
  | .intConstant =>
    program.bind fun p => p.intConstants[i.index]?.map fun n => toString n.toInt
  | .floatConstant => program.bind fun p => p.floatConstants[i.index]?.map Double.text
  | .function => program.bind fun p => p.functions[i.index]?.map Function.name
  | _ => none

/-- The line of the record at `address`. -/
def line (program : Option Program) (record : Record) (address : Nat) : String :=
  let start := Text.padStart 4 '0' (toString address) ++ "  "
  match Instruction.decode record address with
  | .error _ => start ++ ".byte 0x" ++ Text.hexByte record.code
  | .ok i =>
    match remark? program i address with
    | some remark => start ++ i.text ++ "  ; " ++ remark
    | none => start ++ i.text

/-- The listing of a function. An incomplete last record is not shown. -/
def listing (f : Function) (program : Option Program := none) : String :=
  let lines := (List.range f.instructionCount).filterMap fun address =>
    (f.code.recordAt? address).map fun record => line program record address
  Text.unlines (f.heading :: lines)

end Function

/-- The listing of every function of a program, each with its index and followed by an empty
line. -/
def Program.listing (p : Program) : String :=
  String.join (p.functions.toList.mapIdx fun index f =>
    "; function " ++ toString index ++ "\n" ++ f.listing (some p) ++ "\n")

end HotPath
