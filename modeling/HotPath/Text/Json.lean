import HotPath.Text.Field
import HotPath.Double

/-!
# JSON documents

A small document type and its two written forms: `compact` has no blanks at
all, `pretty` puts every item on a line of its own, indented by two blanks for
each level. Fields keep the order in which they are given.
-/

namespace HotPath.Text

/-- A JSON document; a record keeps its fields in order. -/
inductive Json where
  | null
  | bool (value : Bool)
  | integer (value : Int)
  | float (value : Double)
  | string (value : String)
  | list (items : List Json)
  | record (fields : List (String × Json))
deriving Inhabited

namespace Json

/-- The escape for one character inside a string. Quotation marks, backslashes and control
characters below U+0020 are escaped; everything else stands for itself. -/
def escape (c : Char) : String :=
  match c with
  | '"' => "\\\""
  | '\\' => "\\\\"
  | '\n' => "\\n"
  | '\r' => "\\r"
  | '\t' => "\\t"
  | '\x08' => "\\b"
  | '\x0c' => "\\f"
  | c => if c.toNat < 0x20 then "\\u00" ++ hexByte c.toNat.toUInt8 else c.toString

/-- A string between quotation marks. -/
def quote (text : String) : String :=
  "\"" ++ String.join (text.toList.map escape) ++ "\""

/-- The text of a float; the numbers that JSON has no form for become null. -/
def floatText (x : Double) : String :=
  if x.isNaN ∨ x.isInfinite then "null" else x.text

mutual

/-- Write a document without any blanks. -/
def compact : Json → String
  | null => "null"
  | bool value => toString value
  | integer value => toString value
  | float value => floatText value
  | string value => quote value
  | list items => "[" ++ String.intercalate "," (compactItems items) ++ "]"
  | record fields => "\x7b" ++ String.intercalate "," (compactFields fields) ++ "\x7d"

/-- The items of a list. -/
def compactItems : List Json → List String
  | [] => []
  | item :: rest => compact item :: compactItems rest

/-- The fields of a record. -/
def compactFields : List (String × Json) → List String
  | [] => []
  | (name, value) :: rest => (quote name ++ ":" ++ compact value) :: compactFields rest

end

/-- The start of a line at a level of nesting. -/
def indent (level : Nat) : String :=
  "\n" ++ String.ofList (List.replicate (2 * level) ' ')

mutual

/-- Write a document at a level of nesting, one item to a line. -/
def prettyAt (level : Nat) : Json → String
  | null => "null"
  | bool value => toString value
  | integer value => toString value
  | float value => floatText value
  | string value => quote value
  | list [] => "[]"
  | list items =>
    "[" ++ String.intercalate "," (prettyItems (level + 1) items) ++ indent level ++ "]"
  | record [] => "\x7b\x7d"
  | record fields =>
    "\x7b" ++ String.intercalate "," (prettyFields (level + 1) fields) ++ indent level ++ "\x7d"

/-- The items of a list, each on a line of its own. -/
def prettyItems (level : Nat) : List Json → List String
  | [] => []
  | item :: rest => (indent level ++ prettyAt level item) :: prettyItems level rest

/-- The fields of a record, each on a line of its own. -/
def prettyFields (level : Nat) : List (String × Json) → List String
  | [] => []
  | (name, value) :: rest =>
    (indent level ++ quote name ++ ": " ++ prettyAt level value) :: prettyFields level rest

end

/-- Write a document over several lines. -/
def pretty (document : Json) : String :=
  prettyAt 0 document

end Json

end HotPath.Text
