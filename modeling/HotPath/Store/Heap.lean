import HotPath.Store.Action

/-!
# The heap

Arrays live in numbered slots and are counted: every place that holds a
reference to an array stands for one count, and giving back the last reference
frees the array. A freed slot is used again, the one freed last first, and its
generation goes up by one with every free. An id that names an earlier
generation is therefore recognised as stale instead of reaching the array that
has taken its place.

`allocate` and `importHost` cannot fail. All other operations are actions that
fault when the id is not that of a live array, and an operation that faults
leaves the heap as it was.

A `Numbering` says what the id of a new array keeps of the number of its slot. An id
has 32 bits for it, which is `Numbering.low32`; with more slots than that, two of them
share an id. `Numbering.whole` keeps everything. The two make the same of a heap as long
as it has at most `2 ^ 32` slots, and where nothing else is said ids keep the whole number.
-/

namespace HotPath

/-- An array with the number of references to it. -/
structure Cell where
  contents : Elements
  references : Nat
deriving DecidableEq, Repr, Inhabited

/-- A place for an array. -/
structure Slot where
  /-- How often an array in this slot has been freed, modulo `2 ^ 32`. -/
  generation : UInt32
  cell : Option Cell
deriving DecidableEq, Repr, Inhabited

/-- What has happened on a heap so far. -/
structure HeapCounts where
  /-- Arrays that are alive. -/
  live : Nat := 0
  /-- The most arrays that were ever alive at once. -/
  peak : Nat := 0
  allocations : Nat := 0
  frees : Nat := 0
deriving DecidableEq, Repr, Inhabited

/-- The arrays of one machine. -/
structure Heap where
  slots : Array Slot := #[]
  /-- The empty slots, the one freed last in front. -/
  free : List Nat := []
  counts : HeapCounts := {}
deriving DecidableEq, Repr, Inhabited

/-- What the id of a new array keeps of the number of its slot. -/
class Numbering where
  /-- The number in the ids of a slot. -/
  index : Nat → Nat

namespace Numbering

/-- Ids that keep the whole number, so that no two slots share one. -/
instance whole : Numbering := ⟨fun slot => slot⟩

/-- Ids with 32 bits for the number. -/
@[reducible] def low32 : Numbering := ⟨fun slot => (UInt32.ofNat slot).toNat⟩

@[simp] theorem index_whole (slot : Nat) : Numbering.index slot = slot := rfl

end Numbering

namespace HeapCounts

/-- Count one more array. -/
def allocated (c : HeapCounts) : HeapCounts where
  live := c.live + 1
  peak := max c.peak (c.live + 1)
  allocations := c.allocations + 1
  frees := c.frees

/-- Count one array less. -/
def freed (c : HeapCounts) : HeapCounts :=
  { c with live := c.live - 1, frees := c.frees + 1 }

end HeapCounts

namespace Heap

/-- The heap without any array. -/
def empty : Heap := {}

/-- The array that an id names, if it is alive. -/
def find? (h : Heap) (id : ArrayId) : Option Cell :=
  match h.slots[id.index]? with
  | some slot => if slot.generation = id.generation then slot.cell else none
  | none => none

def isLive (h : Heap) (id : ArrayId) : Bool := (h.find? id).isSome

/-- Change the array in a slot. -/
def modifyCell (h : Heap) (index : Nat) (change : Cell → Cell) : Heap :=
  { h with slots := h.slots.modify index fun slot =>
      { slot with cell := slot.cell.map change } }

/-- Put a new array with one reference on the heap. -/
def allocate [Numbering] (h : Heap) (contents : Elements) : ArrayId × Heap :=
  let cell : Cell := ⟨contents, 1⟩
  match h.free with
  | index :: free =>
    let generation := (h.slots[index]?.map Slot.generation).getD 0
    (⟨index, generation⟩,
      { slots := h.slots.modify index fun slot => { slot with cell := some cell }
        free
        counts := h.counts.allocated })
  | [] =>
    (⟨Numbering.index h.slots.size, 0⟩,
      { slots := h.slots.push ⟨0, some cell⟩
        free := []
        counts := h.counts.allocated })

/-- Empty a slot, so that ids of its present generation become stale. -/
def vacate (h : Heap) (index : Nat) : Heap where
  slots := h.slots.modify index fun slot => ⟨slot.generation + 1, none⟩
  free := index :: h.free
  counts := h.counts.freed

/-- The array that an id names, or the fault that there is none. -/
def lookUp (h : Heap) (id : ArrayId) : Except Fault Cell :=
  match h.find? id with
  | some cell => .ok cell
  | none => .error (.invalidHeapId id)

/-- Read something off a live array. -/
@[inline] def inspect {α : Type} (id : ArrayId) (read : Cell → Except Fault α) : Action Heap α :=
  Action.ofExcept fun h => h.lookUp id >>= read

/-- Add a reference to an array. -/
def retain (id : ArrayId) : Action Heap Unit := fun h =>
  match h.lookUp id with
  | .ok _ => .ok () (h.modifyCell id.index fun cell =>
      { cell with references := cell.references + 1 })
  | .error fault => .error fault h

/-- Give back a reference to an array, and tell whether that freed it. An id of an earlier
generation was freed once too often; an id that has never been given out is unknown. -/
def release (id : ArrayId) : Action Heap Bool := fun h =>
  match h.slots[id.index]? with
  | none => .error (.invalidHeapId id) h
  | some slot =>
    if id.generation < slot.generation then .error (.negativeRefCount id) h
    else if slot.generation < id.generation then .error (.invalidHeapId id) h
    else
      match slot.cell with
      | none => .error (.invalidHeapId id) h
      | some cell =>
        match cell.references with
        | 0 => .error (.negativeRefCount id) h
        | 1 => .ok true (h.vacate id.index)
        | references + 1 => .ok false (h.modifyCell id.index fun cell => { cell with references })

/-- Add a reference to the array that a value names, if it names one. -/
def retainValue : Value → Action Heap Unit
  | .array id => retain id
  | _ => pure ()

/-- Give back the reference that a value holds, if it holds one. -/
def releaseValue : Value → Action Heap Unit
  | .array id => do discard (release id)
  | _ => pure ()

/-- Give back what each of the values holds, in order. A failure does not stop the rest; the
first one is reported at the end. -/
def releaseEach : List Value → Action Heap Unit
  | [] => pure ()
  | value :: rest => Action.both (releaseValue value) (releaseEach rest)

/-- The number of references to an array. -/
def references (id : ArrayId) : Action Heap Nat :=
  inspect id fun cell => .ok cell.references

/-- The type of an array's elements. -/
def elementType (id : ArrayId) : Action Heap ElementType :=
  inspect id fun cell => .ok cell.contents.elementType

/-- The number of elements of an array. -/
def length (id : ArrayId) : Action Heap Nat :=
  inspect id fun cell => .ok cell.contents.size

/-- The place of an element, if a signed index is within the bounds of an array. -/
def place? (contents : Elements) (index : Int64) : Option Nat :=
  if 0 ≤ index.toInt ∧ index.toInt < contents.size then some index.toInt.toNat else none

/-- The element at an index. -/
def load (id : ArrayId) (index : Int64) : Action Heap Value :=
  inspect id fun cell =>
    match (place? cell.contents index).bind cell.contents.get? with
    | some value => .ok value
    | none => .error (.arrayIndexOutOfBounds index cell.contents.size)

/-- Why `value` cannot become the element at an index, or else the place it goes to. -/
def storePlace (contents : Elements) (index : Int64) (value : Value) : Except Fault Nat :=
  match place? contents index with
  | none => .error (.arrayIndexOutOfBounds index contents.size)
  | some place =>
    if contents.accepts value then .ok place
    else .error (.elementMismatch value contents.elementType)

/-- Replace the element at an index. The index is checked before the type of the value. -/
def store (id : ArrayId) (index : Int64) (value : Value) : Action Heap Unit := fun h =>
  match h.lookUp id >>= fun cell => storePlace cell.contents index value with
  | .ok place => .ok () (h.modifyCell id.index fun cell =>
      { cell with contents := cell.contents.set place value })
  | .error fault => .error fault h

/-- The contents of an array, for the host. -/
def toHost (id : ArrayId) : Action Heap HostValue :=
  inspect id fun cell => .ok (.array cell.contents)

/-- The value that stands for a host value. An array is put on the heap, and the value holds
the one reference to it. -/
def importHost [Numbering] (h : Heap) : HostValue → Value × Heap
  | .int n => (.int n, h)
  | .float x => (.float x, h)
  | .bool b => (.bool b, h)
  | .array contents =>
    let (id, h) := h.allocate contents
    (.array id, h)

/-- Import host values from left to right. -/
def importAll [Numbering] (h : Heap) : List HostValue → List Value × Heap
  | [] => ([], h)
  | first :: rest =>
    let (value, h) := h.importHost first
    let (values, h) := h.importAll rest
    (value :: values, h)

/-- The host value that a value stands for, in exchange for what the value holds. An empty
slot stands for no host value. -/
def exportHost : Value → Action Heap (Option HostValue)
  | .null => pure none
  | .int n => pure (some (.int n))
  | .float x => pure (some (.float x))
  | .bool b => pure (some (.bool b))
  | .array id => do
    let contents ← toHost id
    discard (release id)
    return some contents

/-- The text of a value as the program prints it; an array is printed by its contents. -/
def textOf : Value → Action Heap String
  | .array id => do return (← toHost id).text
  | value => pure value.text

namespace Narrow

/-- Put a new array on a heap whose ids have 32 bits for the number of a slot. -/
abbrev allocate := @Heap.allocate .low32

/-- Import host values into a heap whose ids have 32 bits for the number of a slot. -/
abbrev importAll := @Heap.importAll .low32

end Narrow

end Heap

end HotPath
