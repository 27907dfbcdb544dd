import HotPath.Pattern.Escape
import HotPath.Pattern.Nesting
import HotPath.Text.Alphanumeric

/-!
# Reading a pattern

A pattern is read from the left, a token at a time: the start or the end of a group or of a
set, a bar, an operator, a mark of repetition, a change of flags, an item, or a member of a set.
`Reading.step?` reads one token; it fails where no well-formed pattern goes on like that.

Repetition with a count is not supported, nor are conditions on what comes before or after.
-/

namespace HotPath.Pattern

/-- How far the reading of a pattern has come. -/
structure Reading where
  mode : Mode := {}
  /-- The names of the groups that have begun. -/
  names : List (List Char) := []
  /-- What was opened last. -/
  inner : Enclosure := .group {}
  /-- What else is open, from the inside to the outside. -/
  outer : List Enclosure := []
deriving Repr, Inhabited

/-- Whether a text can be the name of a group. -/
def isGroupName : List Char → Bool
  | [] => false
  | first :: rest =>
    (first = '_' || Text.isAlphabetic first) &&
      rest.all fun c => c ∈ ['_', '.', '[', ']'] || Text.isAlphanumeric c

/-- The names of the sets that can be members of a set. -/
def namedSets : List String :=
  ["alnum", "alpha", "ascii", "blank", "cntrl", "digit", "graph", "lower", "print", "punct",
    "space", "upper", "word", "xdigit"]

/-- Read a named set behind its opening bracket, and tell whether it is negated. -/
def readNamedSet? : List Char → Option (Bool × List Char)
  | ':' :: text =>
    let negated := text.head? = some '^'
    let text := if negated then text.tail else text
    match text.dropWhile (· ≠ ':') with
    | ':' :: ']' :: rest =>
      if String.ofList (text.takeWhile (· ≠ ':')) ∈ namedSets then some (negated, rest) else none
    | _ => none
  | _ => none

namespace Mode

/-- Read a member of a set or an end of a range, which is a character unless it is a set. -/
def readMember? (mode : Mode) : List Char → Option (Option Char × List Char)
  | [] => none
  | '\\' :: text =>
    match Escape.read? mode text with
    | some (.literal c, rest) => some (some c, rest)
    | some (.set, rest) => some (none, rest)
    | _ => none
  | c :: text => some (some c, text)

/-- Read a member of a set or a range. -/
def readMembers? (mode : Mode) (text : List Char) : Option (List Char) := do
  let (low, rest) ← mode.readMember? text
  let rest := mode.skip rest
  if rest.head? ≠ some '-' ∨ mode.peek rest.tail ∈ [some ']', some '-'] then
    if low.all mode.admitsMember then some rest else none
  else
    let (high, rest) ← mode.readMember? (mode.skip rest.tail)
    match low, high with
    | some low, some high =>
      if low ≤ high ∧ mode.admitsMember low ∧ mode.admitsMember high then some rest else none
    | _, _ => none

end Mode

namespace Reading

/-- Add a part to what was opened last. -/
def add (r : Reading) (height : Nat) : Reading := { r with inner := r.inner.add height }

/-- Begin a group or a set. -/
def enter (r : Reading) (enclosure : Enclosure) : Reading :=
  { r with inner := enclosure, outer := r.inner :: r.outer }

/-- End a group or a set of a height. The pattern itself cannot be ended. -/
def leave? (r : Reading) (height : Nat) : Option Reading :=
  match r.outer with
  | [] => none
  | enclosing :: outer => some { r with inner := enclosing.add (height + 1), outer }

/-- Begin a group that is read in a mode of its own. -/
def enterGroup (r : Reading) (mode : Mode) : Reading :=
  { r.enter (.group { outerMode := r.mode }) with mode }

/-- Read the name of a group, and begin the group. No two groups have the same name. -/
def enterNamed? (r : Reading) (text : List Char) : Option (Reading × List Char) :=
  let name := text.takeWhile (· ≠ '>')
  match text.dropWhile (· ≠ '>') with
  | [] => none
  | _ :: rest =>
    if isGroupName name ∧ name ∉ r.names then
      some ({ r.enterGroup r.mode with names := name :: r.names }, rest)
    else none

/-- Read flags. In front of a colon they hold for a group that begins there, and may be
missing; otherwise for what is left of the group `g`. -/
def changeFlags? (r : Reading) (g : OpenGroup) (text : List Char) :
    Option (Reading × List Char) :=
  let flags := text.takeWhile fun c => c ≠ ':' ∧ c ≠ ')'
  if isFlags flags then
    let mode := r.mode.change flags
    match flags, text.dropWhile fun c => c ≠ ':' ∧ c ≠ ')' with
    | _, ':' :: rest => some (r.enterGroup mode, rest)
    | _ :: _, ')' :: rest => some ({ r with mode, inner := .group g.addFlags }, rest)
    | _, _ => none
  else none

/-- Read what stands behind an opening parenthesis. -/
def openGroup? (r : Reading) (g : OpenGroup) (text : List Char) : Option (Reading × List Char) :=
  match r.mode.skip text with
  | '?' :: 'P' :: '<' :: rest | '?' :: '<' :: rest => r.enterNamed? rest
  | '?' :: rest => r.changeFlags? g rest
  | rest => some (r.enterGroup r.mode, rest)

/-- Begin a set behind its opening bracket. -/
def openSet? (r : Reading) (text : List Char) : Option (Reading × List Char) :=
  match r.mode.skip text with
  | '^' :: rest => if r.mode.admitsNegation then some (r.enter (.set {}), rest) else none
  | rest => some (r.enter (.set {}), rest)

/-- Read an item that is a character by itself. -/
def readLiteral? (r : Reading) (rest : List Char) : Option (Reading × List Char) :=
  if r.mode.admitsLiteral then some (r.add 0, rest) else none

/-- Read a token in a group `g` whose first character is `c`. -/
def stepGroup? (r : Reading) (g : OpenGroup) (c : Char) (rest : List Char) :
    Option (Reading × List Char) :=
  match c with
  | '(' => r.openGroup? g rest
  | ')' => (r.leave? g.height).map fun r => ({ r with mode := g.outerMode }, rest)
  | '|' => some ({ r with inner := .group g.alternate }, rest)
  | '[' => r.openSet? rest
  | '?' | '*' | '+' =>
    g.repeatLast?.map fun g =>
      ({ r with inner := .group g }, if rest.head? = some '?' then rest.tail else rest)
  | '\x7b' => none
  | '\\' =>
    match Escape.read? r.mode rest with
    | some (.literal _, rest) => r.readLiteral? rest
    | some (_, rest) => some (r.add 0, rest)
    | none => none
  | '.' => if r.mode.unicode then some (r.add 0, rest) else none
  | '^' | '$' => some (r.add 0, rest)
  | _ => r.readLiteral? rest

/-- Read the start of another set, or a whole named set, in a set. A name counts only inside
of a set, and one that is not known is an ordinary set. -/
def openInnerSet? (r : Reading) (text : List Char) : Option (Reading × List Char) :=
  match readNamedSet? text with
  | some (negated, rest) => if r.mode.admitsNamed negated then some (r.add 0, rest) else none
  | none => r.openSet? text

/-- Read a token in a set `s` whose first character is `c`. At the start of a set, dashes
are members, and so is a closing bracket unless a dash comes before it. -/
def stepSet? (r : Reading) (s : OpenSet) (c : Char) (rest : List Char) :
    Option (Reading × List Char) :=
  if s.atStart ∧ c = '-' then
    if r.mode.admitsMember c then some ({ r with inner := .set s.addDash }, rest) else none
  else if s.atStart ∧ s.members.isEmpty ∧ c = ']' then
    if r.mode.admitsMember c then some (r.add 0, rest) else none
  else if c = ']' then (r.leave? s.height).map fun r => (r, rest)
  else if c = '[' then r.openInnerSet? rest
  else if c ∈ ['&', '-', '~'] ∧ rest.head? = some c then
    some ({ r with inner := .set s.operate }, rest.tail)
  else (r.mode.readMembers? (c :: rest)).map fun rest => (r.add 0, rest)

/-- Read a token whose first character is `c`. -/
def step? (r : Reading) (c : Char) (rest : List Char) : Option (Reading × List Char) :=
  match r.inner with
  | .group g => r.stepGroup? g c rest
  | .set s => r.stepSet? s c rest

/-- Read a text of at most `steps` tokens to its end. -/
def read? (r : Reading) : (steps : Nat) → List Char → Option Reading
  | 0, _ => some r
  | steps + 1, text =>
    match r.mode.skip text with
    | [] => some r
    | c :: rest => (r.step? c rest).bind fun (r, rest) => r.read? steps rest

/-- Whether what has been read is a pattern. -/
def isComplete (r : Reading) : Bool :=
  match r.inner, r.outer with
  | .group g, [] => g.height ≤ maxHeight
  | _, _ => false

end Reading

/-- Whether a text is a well-formed pattern. It has no more tokens than characters. -/
def isWellFormed (text : List Char) : Bool :=
  (Reading.read? {} text.length text).any Reading.isComplete

end HotPath.Pattern
