import HotPath.Text.CharSet

/-!
# How a pattern is read

Flags inside a pattern change how it is read from there on, to the end of the group that they
stand in. Three of them decide whether the pattern is well formed. A pattern that ignores
case, or that speaks of bytes and not of characters, may contain less, and one that is spaced
out may have blanks and comments in it. A comment goes from a number sign to the end of the line.
-/

namespace HotPath.Pattern

/-- How a pattern is read from some place on. -/
structure Mode where
  ignoresCase : Bool := false
  /-- Whether the pattern speaks of characters. Otherwise it speaks of bytes. -/
  unicode : Bool := true
  /-- Whether blanks and comments do not count. -/
  spaced : Bool := false
deriving DecidableEq, Repr, Inhabited

/-- A text behind the blanks and comments that it starts with, or inside of which it starts. -/
def skipComments (inComment : Bool) : List Char → List Char
  | [] => []
  | c :: text =>
    if inComment then skipComments (c ≠ '\n') text
    else if Text.isBlank c then skipComments false text
    else if c = '#' then skipComments true text
    else c :: text

namespace Mode

/-- A text behind what does not count at its start. -/
def skip (mode : Mode) (text : List Char) : List Char :=
  if mode.spaced then skipComments false text else text

/-- What decides whether the dash in front of a text makes a range: the first character that is
neither a blank nor the number sign of a comment, if there is one, or else the first one. A
comment is not skipped. -/
def peek (mode : Mode) (text : List Char) : Option Char :=
  if mode.spaced then
    match text.dropWhile Text.isBlank with
    | '#' :: comment => (comment.dropWhile Text.isBlank).head? <|> text.head?
    | rest => rest.head? <|> text.head?
  else text.head?

/-- Whether a character may stand for itself outside of sets. Which characters differ only in
their case is known for bytes alone. -/
def admitsLiteral (mode : Mode) : Bool := !(mode.ignoresCase && mode.unicode)

/-- Whether a character may belong to a set. A set of bytes holds no byte that is
only a part of a character. -/
def admitsMember (mode : Mode) (c : Char) : Bool :=
  if mode.unicode then !mode.ignoresCase else c.toNat < 0x80

/-- Whether one of the named sets of ASCII characters may stand in a set, or the set of all
characters but those. -/
def admitsNamed (mode : Mode) (negated : Bool) : Bool :=
  if mode.unicode then !mode.ignoresCase else !negated

/-- Whether a set may be negated. One of bytes would hold parts of characters. -/
def admitsNegation (mode : Mode) : Bool := mode.unicode

end Mode

/-- The letters of the flags. -/
def flagLetters : List Char := ['i', 's', 'm', 'u', 'U', 'x', 'R']

/-- Whether a text is a list of flags. Each stands there once at most, and behind a minus
sign, which needs one to follow, those that are turned off. -/
def isFlags (flags : List Char) : Bool :=
  flags.all (fun c => c = '-' || c ∈ flagLetters) && decide flags.Nodup &&
    flags.getLast? ≠ some '-'

/-- Turn flags on and off. -/
def Mode.change (mode : Mode) (flags : List Char) : Mode :=
  let setting (flag : Char) (old : Bool) : Bool :=
    if flag ∈ flags then flag ∈ flags.takeWhile (· ≠ '-') else old
  { ignoresCase := setting 'i' mode.ignoresCase
    unicode := setting 'u' mode.unicode
    spaced := setting 'x' mode.spaced }

end HotPath.Pattern
