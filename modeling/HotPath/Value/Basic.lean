import HotPath.Double

/-!
# Values and their types

A `Value` is what a local slot or an operand stack entry holds. Arrays are
held by reference: an `ArrayId` names a slot of the heap together with the
generation in which the array was put there, so an id that has outlived its
array is told apart from the id of a later array in the same slot.

A `HostValue` is what crosses the boundary to the program that embeds the
machine. It carries an array by its contents, `Elements`.
-/

namespace HotPath

/-- The name of an array on the heap. -/
structure ArrayId where
  /-- The heap slot that holds the array, as far as ids keep its number. -/
  index : Nat
  /-- The generation of the slot when the array was put there; it counts modulo `2 ^ 32`. -/
  generation : UInt32
deriving DecidableEq, Repr, Inhabited

/-- The type of an array's elements. Elements are never arrays themselves. -/
inductive ElementType where
  | int
  | float
  | bool
deriving DecidableEq, Repr, Inhabited

/-- The declared type of a parameter or of a result. -/
inductive ValueType where
  | int
  | float
  | bool
  | array (element : ElementType)
  /-- No value at all; only a result has this type. -/
  | void
deriving DecidableEq, Repr, Inhabited

/-- What a local slot or an operand stack entry holds. -/
inductive Value where
  /-- A slot that nothing has been stored into. -/
  | null
  | int (n : Int64)
  | float (x : Double)
  | bool (b : Bool)
  | array (id : ArrayId)
deriving DecidableEq, Repr, Inhabited

/-- The contents of an array, all of one type. -/
inductive Elements where
  | ints (items : Array Int64)
  | floats (items : Array Double)
  | bools (items : Array Bool)
deriving DecidableEq, Repr, Inhabited

/-- A value as the host sees it. -/
inductive HostValue where
  | int (n : Int64)
  | float (x : Double)
  | bool (b : Bool)
  | array (contents : Elements)
deriving DecidableEq, Repr, Inhabited

/-- How a diagnostic names what it found or expected: a declared type, or one of the two
descriptions of a value that no declaration can name. -/
inductive Shape where
  | declared (type : ValueType)
  | null
  /-- An array, whatever its elements. -/
  | someArray
deriving DecidableEq, Repr, Inhabited

namespace ElementType

/-- Every element type, in the order of the tags. -/
def all : List ElementType := [int, float, bool]

/-- The number that stands for the type in an instruction. -/
def tag : ElementType → Nat
  | int => 0
  | float => 1
  | bool => 2

/-- The type that a number stands for. -/
def ofTag? : Nat → Option ElementType
  | 0 => some int
  | 1 => some float
  | 2 => some bool
  | _ => none

def text : ElementType → String
  | int => "int"
  | float => "float"
  | bool => "bool"

theorem ofTag?_tag (t : ElementType) : ofTag? t.tag = some t := by
  cases t <;> rfl

end ElementType

namespace ValueType

/-- Every declared type. -/
def all : List ValueType :=
  [int, float, bool, void] ++ ElementType.all.map array

def text : ValueType → String
  | int => "int"
  | float => "float"
  | bool => "bool"
  | array element => element.text ++ "[]"
  | void => "void"

end ValueType

namespace Shape

def text : Shape → String
  | declared type => type.text
  | null => "null"
  | someArray => "array"

end Shape

namespace ArrayId

def text (id : ArrayId) : String :=
  "#" ++ toString id.index ++ "." ++ toString id.generation.toNat

end ArrayId

namespace Value

def asInt? : Value → Option Int64
  | int n => some n
  | _ => none

def asFloat? : Value → Option Double
  | float x => some x
  | _ => none

def asBool? : Value → Option Bool
  | bool b => some b
  | _ => none

def asArray? : Value → Option ArrayId
  | array id => some id
  | _ => none

/-- Whether the value keeps an array alive. -/
def isReference : Value → Bool
  | array _ => true
  | _ => false

def shape : Value → Shape
  | null => .null
  | int _ => .declared .int
  | float _ => .declared .float
  | bool _ => .declared .bool
  | array _ => .someArray

def text : Value → String
  | null => "null"
  | int n => toString n.toInt
  | float x => x.text
  | bool b => toString b
  | array id => "array" ++ id.text

/-- Equality as the numbers see it: the zeros are equal, and a not-a-number differs from itself. -/
def numEq : Value → Value → Bool
  | float x, float y => x.numEq y
  | v, w => v = w

end Value

namespace Elements

def elementType : Elements → ElementType
  | ints _ => .int
  | floats _ => .float
  | bools _ => .bool

def size : Elements → Nat
  | ints items => items.size
  | floats items => items.size
  | bools items => items.size

def isEmpty (contents : Elements) : Bool := contents.size = 0

/-- `size` zeros of a type; the zero of truth values is `false`. -/
def zeros (type : ElementType) (size : Nat) : Elements :=
  match type with
  | .int => ints (Array.replicate size 0)
  | .float => floats (Array.replicate size Double.zero)
  | .bool => bools (Array.replicate size false)

/-- The element at an index. -/
def get? (contents : Elements) (index : Nat) : Option Value :=
  match contents with
  | ints items => items[index]?.map Value.int
  | floats items => items[index]?.map Value.float
  | bools items => items[index]?.map Value.bool

/-- Whether a value is of the type of the elements. -/
def accepts (contents : Elements) (value : Value) : Bool :=
  match contents, value with
  | ints _, .int _ => true
  | floats _, .float _ => true
  | bools _, .bool _ => true
  | _, _ => false

/-- Replace the element at an index. A value of another type and an index past the end change
nothing. -/
def set (contents : Elements) (index : Nat) (value : Value) : Elements :=
  match contents, value with
  | ints items, .int n => ints (items.setIfInBounds index n)
  | floats items, .float x => floats (items.setIfInBounds index x)
  | bools items, .bool b => bools (items.setIfInBounds index b)
  | contents, _ => contents

/-- The texts of the elements. -/
def texts : Elements → List String
  | ints items => items.toList.map fun n => toString n.toInt
  | floats items => items.toList.map Double.text
  | bools items => items.toList.map toString

end Elements

namespace HostValue

/-- The declared type that the value satisfies. -/
def type : HostValue → ValueType
  | int _ => .int
  | float _ => .float
  | bool _ => .bool
  | array contents => .array contents.elementType

def text : HostValue → String
  | int n => toString n.toInt
  | float x => x.text
  | bool b => toString b
  | array contents => "[" ++ String.intercalate ", " contents.texts ++ "]"

end HostValue

end HotPath
