import HotPath.Pattern.Reading
import HotPath.Text.Bytes
import HotPath.Text.Numeral

/-!
# Log filters

A log filter is a list of directives with commas between them; empty ones do not count. A
directive is a target, a span in brackets, or a target followed by a span, and behind it
there may be an equals sign and a level. The level may be left empty there. A level
on its own needs no rule: it reads as a target too.

The parts of a directive are found without the blanks around it, but the texts of a field and of a
level are cut out with the blanks still there, at the same distances in bytes from the start. With
blanks in front a field is therefore read too far to the left, and a level never reads well
because the equals sign comes with it.
-/

namespace HotPath

namespace LogFilter

/-- The names of the levels. Their numbers count from zero in this order. -/
def levels : List String := ["off", "error", "warn", "info", "debug", "trace"]

/-- Whether a text stands for a level, by its name in any mixture of cases or by its number. -/
def isLevel (text : String) : Bool :=
  text.toLower ∈ levels || (Text.readNat? text).any fun n => n < levels.length

/-- Whether a target may start with a character. What comes after it is free, up to an equals
sign or an opening bracket. -/
def startsTarget (c : Char) : Bool := Text.isAlphanumeric c || c ∈ ['-', ':', '_']

/-- Whether a text is a field of a span: a name, or a name and a value with an equals sign
between them. The value is a number or a pattern, and another equals sign ends it. -/
def isField (text : List Char) : Bool :=
  !text.isEmpty &&
    match text.dropWhile (· ≠ '=') with
    | [] => true
    | _ :: rest =>
      let value := rest.takeWhile (· ≠ '=')
      Text.isReal value || Pattern.isWellFormed value

/-- Where the parts of a directive are that have to be looked into. A place is given by
what follows it. -/
structure Parts where
  /-- The start and the end of the field. -/
  field : Option (List Char × List Char) := none
  /-- The start of the level. -/
  level : Option (List Char) := none
deriving DecidableEq, Repr, Inhabited

namespace Parts

/-- Read what stands behind a target or a span: nothing, or a level. -/
def withLevel? (parts : Parts) : List Char → Option Parts
  | [] => some parts
  | '=' :: level => some { parts with level }
  | _ => none

/-- Read a span behind its opening bracket, and what follows it. A span is a name that may be
missing, and then one field in braces or none. -/
def ofSpan? (text : List Char) : Option Parts :=
  match text.dropWhile fun c => c ≠ ']' ∧ c ≠ '\x7b' with
  | ']' :: rest => withLevel? {} rest
  | '\x7b' :: field =>
    match field.dropWhile (· ≠ '\x7d') with
    | '\x7d' :: ']' :: rest => withLevel? { field := (field, '\x7d' :: ']' :: rest) } rest
    | _ => none
  | _ => none

/-- Read a directive without blanks around it. -/
def ofDirective? : List Char → Option Parts
  | [] => none
  | '[' :: text => ofSpan? text
  | first :: text =>
    if startsTarget first then
      match text.dropWhile fun c => c ≠ '=' ∧ c ≠ '[' with
      | '[' :: text => ofSpan? text
      | rest => withLevel? {} rest
    else none

end Parts

/-- Whether a text is a directive. -/
def isDirective (text : List Char) : Bool :=
  let trimmed := Text.trimBlanks text
  let place (rest : List Char) : Nat := Text.byteSize trimmed - Text.byteSize rest
  match Parts.ofDirective? trimmed with
  | none => false
  | some parts =>
    (parts.field.all fun (start, stop) =>
      (Text.slice? text (place start) (place stop)).any isField) &&
    (parts.level.all fun start =>
      (Text.slice? text (place start) (Text.byteSize text)).any fun level =>
        level.isEmpty || isLevel (String.ofList level))

/-- Whether a text is a filter. -/
def isFilter (text : String) : Bool :=
  ((text.splitOn ",").filter fun directive => !directive.isEmpty).all fun directive =>
    isDirective directive.toList

end LogFilter

end HotPath
