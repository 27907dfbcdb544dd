import HotPath.Code.Function

/-!
# Programs under construction

A `Draft` collects the parts of a program. Constants are interned: adding one
that is already in its table returns the index it has there. Indices are given out
in order and never change.

A table is not searched for that. Beside it stands a `PlaceIndex` that leads from
the key of a constant to its place, and a constant that has no entry there is appended
to the table and entered into the index. An integer is its own key; the key of a float is its
bits, so that the two zeros have entries of their own.
-/

namespace HotPath

/-- Places in a table, found by keys. -/
structure PlaceIndex (κ : Type) where
  /-- The entries, the latest in front. -/
  entries : List (κ × Nat) := []
deriving Repr, Inhabited

namespace PlaceIndex

variable {κ : Type} [DecidableEq κ]

/-- The place that was entered last for a key. -/
def find? (index : PlaceIndex κ) (key : κ) : Option Nat := index.entries.lookup key

/-- Enter a place for a key, instead of the one that the key may have. -/
def insert (index : PlaceIndex κ) (key : κ) (place : Nat) : PlaceIndex κ :=
  ⟨(key, place) :: index.entries⟩

@[simp] theorem find?_empty (key : κ) : ({} : PlaceIndex κ).find? key = none := rfl

theorem find?_insert (index : PlaceIndex κ) (key other : κ) (place : Nat) :
    (index.insert key place).find? other = if other = key then some place else index.find? other := by
  unfold find? insert
  rw [List.lookup_cons]
  by_cases same : other = key
  · rw [if_pos same, beq_iff_eq.mpr same]
  · rw [if_neg same, beq_eq_false_iff_ne.mpr same]

end PlaceIndex

/-- A table of constants and the index of their places. -/
structure Pool (κ α : Type) where
  constants : Array α := #[]
  index : PlaceIndex κ := {}
deriving Repr, Inhabited

namespace Pool

variable {κ α : Type} [DecidableEq κ]

/-- The place of `value`, which is appended if its key has none. -/
def intern (key : α → κ) (pool : Pool κ α) (value : α) : Nat × Pool κ α :=
  match pool.index.find? (key value) with
  | some place => (place, pool)
  | none =>
    let place := pool.constants.size
    (place,
      { constants := pool.constants.push value
        index := pool.index.insert (key value) place })

end Pool

/-- A program under construction. -/
structure Draft where
  ints : Pool Int64 Int64 := {}
  floats : Pool UInt64 Double := {}
  functions : Array Function := #[]
  entry : Option String := none
deriving Repr, Inhabited

namespace Draft

/-- Intern an integer constant. -/
def addInt (d : Draft) (value : Int64) : Nat × Draft :=
  let (place, ints) := d.ints.intern id value
  (place, { d with ints })

/-- Intern a float constant. -/
def addFloat (d : Draft) (value : Double) : Nat × Draft :=
  let (place, floats) := d.floats.intern Double.bits value
  (place, { d with floats })

/-- The index that the next function gets. -/
def nextFunction (d : Draft) : Nat := d.functions.size

/-- Append a function. -/
def addFunction (d : Draft) (f : Function) : Nat × Draft :=
  (d.nextFunction, { d with functions := d.functions.push f })

/-- Name the function to start with. -/
def setEntry (d : Draft) (name : String) : Draft := { d with entry := some name }

/-- The finished program. It starts with its first function unless another one was named. -/
def finish (d : Draft) : Program where
  intConstants := d.ints.constants
  floatConstants := d.floats.constants
  functions := d.functions
  entry := d.entry.getD (Program.defaultEntry d.functions)

end Draft

end HotPath
