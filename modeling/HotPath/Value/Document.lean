import HotPath.Text.Json
import HotPath.Value.Basic

/-!
# Host values as JSON

A host value is written without a tag: a number, a truth value, or a list of
them. The type is not recorded.
-/

namespace HotPath

/-- The items of an array, as documents. -/
def Elements.documents : Elements → List Text.Json
  | ints items => items.toList.map fun n => .integer n.toInt
  | floats items => items.toList.map .float
  | bools items => items.toList.map .bool

/-- A host value as a document. -/
def HostValue.document : HostValue → Text.Json
  | int n => .integer n.toInt
  | float x => .float x
  | bool b => .bool b
  | array contents => .list contents.documents

/-- The capitalised name that stands for an element type in a document. -/
def ElementType.documentName : ElementType → String
  | int => "Int"
  | float => "Float"
  | bool => "Bool"

end HotPath
