import HotPath.Store.Heap

/-!
# Ids of 32 bits

What the id of a new array keeps of the number of its slot makes no difference to the heap
(`allocate_heap`, `importHost_heap`), only to the name under which the array is known. With 32 bits
that is the same name as long as the heap has at most `2 ^ 32` slots (`allocate_narrow`,
`importAll_narrow`). The array in the slot after these is known by the name of the first one
(`allocate_narrow_brink`).
-/

namespace HotPath

/-- A number below `2 ^ 32` finds room in an id. -/
theorem Numbering.index_low32 {slot : Nat} (low : slot < UInt32.size) : low32.index slot = slot := by
  change (UInt32.ofNat slot).toNat = slot
  rw [UInt32.toNat_ofNat', Nat.mod_eq_of_lt low]

namespace Heap

section Allocation

variable (h : Heap) (contents : Elements)

/-- The heap does not depend on what ids keep. -/
theorem allocate_heap [Numbering] : (h.allocate contents).2 = (@allocate .whole h contents).2 := by
  unfold allocate
  cases h.free <;> rfl

/-- No slot is lost when an array is put on the heap. -/
theorem size_le_allocate [Numbering] : h.slots.size ≤ (h.allocate contents).2.slots.size := by
  unfold allocate
  cases h.free <;> simp

variable {h contents}

/-- An array in one of the first `2 ^ 32` slots gets the id that it has when ids keep everything. -/
theorem allocate_narrow (room : (Narrow.allocate h contents).2.slots.size ≤ UInt32.size) :
    Narrow.allocate h contents = h.allocate contents := by
  unfold Narrow.allocate allocate at *
  cases names : h.free with
  | cons index free => rfl
  | nil =>
    rw [names] at room
    have low : h.slots.size < UInt32.size := by rwa [Array.size_push] at room
    dsimp only
    rw [Numbering.index_low32 low, Numbering.index_whole]

/-- With `2 ^ 32` arrays on the heap the next one gets the id that the first one was given. -/
theorem allocate_narrow_brink (full : h.free = []) (size : h.slots.size = UInt32.size) :
    (Narrow.allocate h contents).1 = ⟨0, 0⟩ := by
  unfold Narrow.allocate allocate
  rw [full, size]
  rfl

end Allocation

section Imports

variable [Numbering] (h : Heap) (host : HostValue) (hosts : List HostValue)

/-- The first value is imported, and then the others. -/
theorem importAll_cons : h.importAll (host :: hosts) =
    ((h.importHost host).1 :: ((h.importHost host).2.importAll hosts).1,
      ((h.importHost host).2.importAll hosts).2) := rfl

/-- Nor does the heap depend on it when a host value is imported. -/
theorem importHost_heap : (h.importHost host).2 = (@importHost .whole h host).2 := by
  cases host with
  | array contents => exact h.allocate_heap contents
  | _ => rfl

/-- No slot is lost when host values are imported. -/
theorem size_le_importAll : h.slots.size ≤ (h.importAll hosts).2.slots.size := by
  induction hosts generalizing h with
  | nil => exact Nat.le_refl _
  | cons host rest ih =>
    refine Nat.le_trans ?_ (ih _)
    cases host with
    | array contents => exact h.size_le_allocate contents
    | _ => exact Nat.le_refl _

end Imports

/-- A host value becomes the value that it becomes when ids keep everything, if the heap that it is
on has at most `2 ^ 32` slots. -/
theorem importHost_narrow {h : Heap} {host : HostValue}
    (room : (@importHost .low32 h host).2.slots.size ≤ UInt32.size) :
    @importHost .low32 h host = h.importHost host := by
  cases host with
  | array contents =>
    exact congrArg (fun made => (Value.array made.1, made.2)) (allocate_narrow room)
  | _ => rfl

/-- So do any number of them. -/
theorem importAll_narrow {h : Heap} {hosts : List HostValue}
    (room : (Narrow.importAll h hosts).2.slots.size ≤ UInt32.size) :
    Narrow.importAll h hosts = h.importAll hosts := by
  induction hosts generalizing h with
  | nil => rfl
  | cons host rest ih =>
    unfold Narrow.importAll at room ⊢
    rw [@importAll_cons .low32] at room ⊢
    have first : @importHost .low32 h host = h.importHost host :=
      importHost_narrow (Nat.le_trans (@size_le_importAll .low32 _ rest) room)
    rw [first] at room ⊢
    have others : @importAll .low32 _ rest = (h.importHost host).2.importAll rest := ih room
    rw [others, @importAll_cons .whole]

end Heap

end HotPath
