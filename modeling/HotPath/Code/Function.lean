import HotPath.Code.Stream
import HotPath.Value.Basic

/-!
# Functions and programs

A `Function` is a named stream of instructions with a signature and a number
of local slots, the first of which take the arguments. A `Program` is what the
machine runs: two tables of constants, a table of functions that call each
other by index, and the name of the function to start with.
-/

namespace HotPath

/-- A named parameter with its declared type. -/
structure Parameter where
  name : String
  type : ValueType
deriving DecidableEq, Repr, Inhabited

/-- A function; every parameter has a local slot. -/
structure Function where
  name : String
  parameters : List Parameter
  result : ValueType
  /-- The number of local slots, those of the parameters included. -/
  localCount : Nat
  code : Code
  arity_le : parameters.length ≤ localCount
deriving DecidableEq, Repr

namespace Function

/-- A function with at least as many local slots as it has parameters. -/
def make (name : String) (parameters : List Parameter) (result : ValueType) (locals : Nat)
    (code : Code) : Function :=
  ⟨name, parameters, result, max locals parameters.length, code, Nat.le_max_right ..⟩

instance : Inhabited Function := ⟨make "" [] .void 0 .empty⟩

/-- The number of parameters. -/
def arity (f : Function) : Nat := f.parameters.length

/-- The number of whole instructions. -/
def instructionCount (f : Function) : Nat := f.code.instructionCount

/-- The same function with other code. -/
def withCode (f : Function) (code : Code) : Function := { f with code }

end Function

/-- A complete program. -/
structure Program where
  intConstants : Array Int64
  floatConstants : Array Double
  functions : Array Function
  /-- The name of the function to start with. -/
  entry : String
deriving DecidableEq, Repr, Inhabited

namespace Program

/-- The entry that a program has unless another one is named: its first function. -/
def defaultEntry (functions : Array Function) : String :=
  match functions[0]? with
  | some f => f.name
  | none => ""

/-- The index of the first function with a name. -/
def indexOf? (p : Program) (name : String) : Option Nat :=
  p.functions.findIdx? fun f => f.name = name

/-- The index of the entry function. -/
def entryIndex? (p : Program) : Option Nat := p.indexOf? p.entry

end Program

end HotPath
