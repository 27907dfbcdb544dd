import HotPath.Pattern.Mode
import HotPath.Text.Field

/-!
# Escapes

Behind a backslash a character of ASCII that is neither a letter nor a digit stands for itself,
angle brackets aside. Some letters stand for a control character, for a place in the text, or for
a set, and some begin the code of a character in hexadecimal digits. Which characters are digits,
blanks or parts of words is known for bytes alone, so what depends on it is refused where
the pattern speaks of characters.
-/

namespace HotPath.Pattern

/-- What an escape stands for. -/
inductive Escape where
  | literal (c : Char)
  /-- The digits, the blanks or the characters of words. -/
  | set
  /-- A place between characters. -/
  | place
deriving DecidableEq, Repr

/-- Read hexadecimal digits behind those that make up `value`. -/
def Mode.readHex? (mode : Mode) : (count value : Nat) → List Char → Option (Nat × List Char)
  | 0, value, text => some (value, text)
  | count + 1, value, text =>
    match mode.skip text with
    | [] => none
    | c :: rest =>
      (Text.hexDigit? c).bind fun digit => mode.readHex? count (16 * value + digit) rest

namespace Escape

/-- The number of hexadecimal digits that a letter asks for. -/
def hexLength? : Char → Option Nat
  | 'x' => some 2
  | 'u' => some 4
  | 'U' => some 8
  | _ => none

/-- The control character that a letter stands for. -/
def control? : Char → Option Char
  | 'a' => some '\x07'
  | 't' => some '\t'
  | 'n' => some '\n'
  | 'v' => some '\x0b'
  | 'f' => some '\x0c'
  | 'r' => some '\r'
  | _ => none

/-- What a character code stands for. One of two digits is a byte where the pattern speaks of
bytes, and may then not be a part of a character. -/
def ofCode? (mode : Mode) (length value : Nat) : Option Escape :=
  if value.isValidChar ∧ (mode.unicode ∨ 2 < length ∨ value < 0x80) then
    some (literal (Char.ofNat value))
  else none

/-- What a character behind a backslash stands for, if it needs no digits. -/
def ofChar? (mode : Mode) (c : Char) : Option Escape :=
  if c ∈ ['A', 'z'] then some place
  else if c ∈ ['b', 'B', '<', '>'] then if mode.unicode then none else some place
  else if c ∈ ['d', 's', 'w'] then if mode.unicode then none else some set
  else if c.toNat < 0x80 ∧ !c.isAlphanum then some (literal c)
  else (control? c).map literal

/-- Read an escape behind its backslash. -/
def read? (mode : Mode) : List Char → Option (Escape × List Char)
  | [] => none
  | c :: text =>
    match hexLength? c with
    | some length => do
      let (value, rest) ← mode.readHex? length 0 text
      let escape ← ofCode? mode length value
      some (escape, rest)
    | none => (ofChar? mode c).map fun escape => (escape, text)

end Escape

end HotPath.Pattern
