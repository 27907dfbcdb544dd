/-!
# Reading decimal numbers

A natural number is one or more of the digits 0 to 9 with or without a plus sign in front of
it; leading zeros are allowed, blanks and separators are not. An integer may have
a minus sign instead.

A real number has a sign or none, digits around or beside a point or without one, and
possibly an exponent. Infinity and the value that is not a number are spelled out, in any
mixture of cases.
-/

namespace HotPath.Text

/-- Read one or more decimal digits. -/
def readDigits? (digits : List Char) : Option Nat :=
  if digits.isEmpty then none
  else if digits.all Char.isDigit then
    some (digits.foldl (fun n c => 10 * n + (c.toNat - '0'.toNat)) 0)
  else none

/-- Read a natural number, which may have a plus sign. -/
def readNat? (text : String) : Option Nat :=
  match text.toList with
  | '+' :: digits => readDigits? digits
  | digits => readDigits? digits

/-- Read an integer, which may have a sign. -/
def readInt? (text : String) : Option Int :=
  match text.toList with
  | '-' :: digits => (readDigits? digits).map fun n => -(n : Int)
  | _ => (readNat? text).map fun n => (n : Int)

/-- A text without the sign that it may start with. -/
def withoutSign : List Char → List Char
  | '+' :: text | '-' :: text => text
  | text => text

/-- Whether a text is an exponent or empty. -/
def isExponent : List Char → Bool
  | [] => true
  | 'e' :: digits | 'E' :: digits => (readDigits? (withoutSign digits)).isSome
  | _ => false

/-- Whether a text is a numeral without a sign. Its digits may stand on either side of the point. -/
def isUnsignedReal (text : List Char) : Bool :=
  let whole := text.takeWhile Char.isDigit
  match text.dropWhile Char.isDigit with
  | '.' :: rest =>
    !(whole ++ rest.takeWhile Char.isDigit).isEmpty && isExponent (rest.dropWhile Char.isDigit)
  | rest => !whole.isEmpty && isExponent rest

/-- The spellings of the real numbers that are not finite, without a sign. -/
def nonFiniteReals : List String := ["inf", "infinity", "nan"]

/-- Whether a text is a real number. -/
def isReal (text : List Char) : Bool :=
  let magnitude := withoutSign text
  isUnsignedReal magnitude || (String.ofList magnitude).toLower ∈ nonFiniteReals

end HotPath.Text
