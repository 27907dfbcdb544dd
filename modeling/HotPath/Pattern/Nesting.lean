import HotPath.Pattern.Mode

/-!
# Nesting

A pattern is an alternation of branches, a branch a row of items, and an item may be a group
with a pattern in it or a set, which may hold other sets. The height of a pattern counts how
deep all this is nested: whatever puts parts together is one higher than the highest of them,
and a character or a place has the height zero. A row of one part is that part.

While a pattern is read, all that matters of a group or set that has not ended is the heights
of its parts.
-/

namespace HotPath.Pattern

/-- The greatest height that a pattern may have. -/
def maxHeight : Nat := 250

/-- The height of some parts in a row. -/
def rowHeight : List Nat → Nat
  | [] => 0
  | [height] => height
  | heights => heights.foldl max 0 + 1

/-- A group that has not ended, or the pattern itself. -/
structure OpenGroup where
  /-- How to go on behind the group. -/
  outerMode : Mode := {}
  /-- The heights of the branches that have ended. -/
  branches : List Nat := []
  /-- The heights of the items of the branch that is being read, the last one first. -/
  items : List Nat := []
  /-- Whether the last item can be repeated. Flags cannot. -/
  repeatable : Bool := false
deriving DecidableEq, Repr, Inhabited

namespace OpenGroup

/-- The height of what is in a group. -/
def height (g : OpenGroup) : Nat :=
  match g.branches with
  | [] => rowHeight g.items
  | branches => branches.foldl max (rowHeight g.items) + 1

/-- Add an item that can be repeated. -/
def add (g : OpenGroup) (height : Nat) : OpenGroup :=
  { g with items := height :: g.items, repeatable := true }

/-- Add flags. -/
def addFlags (g : OpenGroup) : OpenGroup := { g with items := 0 :: g.items, repeatable := false }

/-- Repeat the last item. -/
def repeatLast? (g : OpenGroup) : Option OpenGroup :=
  match g.repeatable, g.items with
  | true, height :: items => some { g with items := (height + 1) :: items }
  | _, _ => none

/-- Begin another branch. -/
def alternate (g : OpenGroup) : OpenGroup :=
  { g with branches := rowHeight g.items :: g.branches, items := [], repeatable := false }

end OpenGroup

/-- A set that has not ended. -/
structure OpenSet where
  /-- The height of what is left of the last operator. -/
  left : Option Nat := none
  /-- The heights of the members since then, the last one first. -/
  members : List Nat := []
  /-- Whether nothing but dashes has been read. -/
  atStart : Bool := true
deriving DecidableEq, Repr, Inhabited

namespace OpenSet

/-- The height of what is in a set. -/
def height (s : OpenSet) : Nat :=
  match s.left with
  | none => rowHeight s.members
  | some left => max left (rowHeight s.members) + 1

/-- Add a member. -/
def add (s : OpenSet) (height : Nat) : OpenSet :=
  { s with members := height :: s.members, atStart := false }

/-- Add a dash at the start of a set. -/
def addDash (s : OpenSet) : OpenSet := { s with members := 0 :: s.members }

/-- Go on behind an operator. Operators group to the left. -/
def operate (s : OpenSet) : OpenSet := { left := some s.height, atStart := false }

end OpenSet

/-- What has not ended at some place of a pattern. -/
inductive Enclosure where
  | group (g : OpenGroup)
  | set (s : OpenSet)
deriving DecidableEq, Repr, Inhabited

namespace Enclosure

/-- Add a part that can be repeated. -/
def add (height : Nat) : Enclosure → Enclosure
  | group g => group (g.add height)
  | set s => set (s.add height)

def isSet : Enclosure → Bool
  | group _ => false
  | set _ => true

end Enclosure

end HotPath.Pattern
