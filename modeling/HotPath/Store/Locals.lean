import HotPath.Store.Heap

/-!
# Local slots

The slots of one call. A slot that holds an array holds one reference to it:
copying a slot out adds a reference, moving a value in gives back what the slot
held before. The operations that do this act on the slots together with the
heap.
-/

namespace HotPath

/-- The local slots of one call. -/
structure Locals where
  slots : Array Value
deriving DecidableEq, Repr, Inhabited

namespace Locals

/-- `count` slots that nothing has been stored into. -/
def blank (count : Nat) : Locals := ⟨Array.replicate count .null⟩

def size (l : Locals) : Nat := l.slots.size

def isEmpty (l : Locals) : Bool := l.slots.isEmpty

/-- The fault that there is no slot at an index. -/
def missing (l : Locals) (index : Nat) : Fault := .invalidLocalIndex index l.size

/-- What a slot holds. -/
def get (l : Locals) (index : Nat) : Except Fault Value :=
  match l.slots[index]? with
  | some value => .ok value
  | none => .error (l.missing index)

/-- Put a value into a slot and forget what was there; there has to be such a slot. -/
def put (l : Locals) (index : Nat) (value : Value) : Locals :=
  ⟨l.slots.setIfInBounds index value⟩

/-- Copy a slot out, which adds a reference to the array that it holds. -/
def load (index : Nat) : Action (Locals × Heap) Value := do
  let value ← Action.onLeft (Action.ofExcept fun l => l.get index)
  Action.onRight (Heap.retainValue value)
  return value

/-- Move a value into a slot and give back what the slot held. Without such a slot the value
itself is given back, so that nothing it holds outlives the fault. -/
def store (index : Nat) (value : Value) : Action (Locals × Heap) Unit := fun (l, h) =>
  match l.slots[index]? with
  | some previous => Action.onRight (Heap.releaseValue previous) (l.put index value, h)
  | none =>
    match Heap.releaseValue value h with
    | .ok _ h => .error (l.missing index) (l, h)
    | .error fault h => .error fault (l, h)

/-- The integer in a slot. -/
def getInt (l : Locals) (index : Nat) : Except Fault Int64 := do
  let value ← l.get index
  match value.asInt? with
  | some n => .ok n
  | none => .error (.invalidValueType (.declared .int) value.shape)

/-- Overwrite the integer in a slot. A slot that holds anything else is left alone. -/
def setInt (index : Nat) (n : Int64) : Action Locals Unit := fun l =>
  match l.getInt index with
  | .ok _ => .ok () (l.put index (.int n))
  | .error fault => .error fault l

/-- Give back what every slot holds and empty it. -/
def releaseAll : Action (Locals × Heap) Unit := fun (l, h) =>
  Action.onRight (Heap.releaseEach l.slots.toList) (blank l.size, h)

end Locals

end HotPath
