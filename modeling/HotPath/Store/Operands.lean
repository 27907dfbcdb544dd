import HotPath.Store.Heap

/-!
# The operand stack

All calls of an execution share one stack of operands. A call sees only the
entries above its base: taking one from below is a fault, however many there
are. The number of entries is limited.

An entry that holds an array holds one reference to it. The operations that
copy or drop entries act on the stack together with the heap.
-/

namespace HotPath

/-- The operands of all calls, the top one last. -/
structure OperandStack where
  entries : Array Value
  /-- The number of entries that the present call cannot see. -/
  base : Nat
  /-- The most entries that the stack may hold. -/
  limit : Nat
deriving DecidableEq, Repr, Inhabited

namespace OperandStack

/-- A stack without entries. -/
def empty (limit : Nat) : OperandStack := ⟨#[], 0, limit⟩

def size (s : OperandStack) : Nat := s.entries.size

def isEmpty (s : OperandStack) : Bool := s.entries.isEmpty

/-- The number of entries that the present call sees. -/
def visible (s : OperandStack) : Nat := s.size - min s.base s.size

/-- Hide the entries below a height from the present call. -/
def setBase (s : OperandStack) (base : Nat) : OperandStack := { s with base }

/-- Put a value on top. If there is no room the value stays with whoever holds it. -/
@[inline] def push (value : Value) : Action OperandStack Unit := fun s =>
  if s.entries.size < s.limit then .ok () { s with entries := s.entries.push value }
  else .error (.stackOverflow s.limit) s

/-- The top entry. -/
@[inline] def peek (s : OperandStack) : Except Fault Value :=
  if s.entries.size ≤ s.base then .error .stackUnderflow
  else
    match s.entries.back? with
    | some value => .ok value
    | none => .error .stackUnderflow

/-- Take the top entry off. -/
@[inline] def pop : Action OperandStack Value := fun s =>
  match s.peek with
  | .ok value => .ok value { s with entries := s.entries.pop }
  | .error fault => .error fault s

/-- Put a value on top, or give back what it holds if there is no room. -/
@[inline] def pushOrRelease (value : Value) : Action (OperandStack × Heap) Unit := fun (s, h) =>
  match push value s with
  | .ok _ s => .ok () (s, h)
  | .error full s =>
    match Heap.releaseValue value h with
    | .ok _ h => .error full (s, h)
    | .error fault h => .error fault (s, h)

/-- Put a copy of the top entry on top. -/
def dup : Action (OperandStack × Heap) Unit := do
  let value ← Action.onLeft (Action.ofExcept peek)
  Action.onLeft (push value)
  Action.onRight (Heap.retainValue value)

/-- Take the top entry off and give back what it holds. -/
def drop : Action (OperandStack × Heap) Unit := do
  let value ← Action.onLeft pop
  Action.onRight (Heap.releaseValue value)

/-- The entries above a height, from the top down. -/
def above (s : OperandStack) (height : Nat) : List Value :=
  (s.entries.extract height s.entries.size).toList.reverse

theorem toList_extract (s : OperandStack) (height : Nat) :
    (s.entries.extract height s.size).toList = s.entries.toList.drop height := by
  have whole : s.size = s.entries.toList.length := Array.length_toList.symm
  rw [Array.toList_extract, List.extract_eq_take_drop, whole, ← List.length_drop,
    List.take_length]

theorem above_eq (s : OperandStack) (height : Nat) :
    s.above height = (s.entries.toList.drop height).reverse :=
  congrArg List.reverse (s.toList_extract height)

/-- Drop all entries above a height, from the top down, and give back what they hold. -/
def truncate (height : Nat) : Action (OperandStack × Heap) Unit := fun (s, h) =>
  let dropped := s.above height
  Action.onRight (Heap.releaseEach dropped)
    ({ s with entries := s.entries.shrink height, base := min s.base height }, h)

/-- Drop all entries. -/
def clear : Action (OperandStack × Heap) Unit := truncate 0

end OperandStack

end HotPath
