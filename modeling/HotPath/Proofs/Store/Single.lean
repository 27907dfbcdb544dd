import HotPath.Store.Heap

/-!
# A heap with one array

What the operations do to a heap on which one array of integers has been put and nothing
else has happened.
-/

namespace HotPath

namespace Heap

/-- The id of the first array on a heap. -/
def firstId : ArrayId := ⟨0, 0⟩

/-- The heap with one array of integers. -/
def single (items : Array Int64) (references : Nat) : Heap where
  slots := #[⟨0, some ⟨.ints items, references⟩⟩]
  free := []
  counts := { live := 1, peak := 1, allocations := 1 }

variable (items : Array Int64) (references : Nat)

theorem allocate_empty (length : Nat) :
    empty.allocate (.zeros .int length) = (firstId, single (.replicate length 0) 1) := rfl

theorem lookUp_single : (single items references).lookUp firstId = .ok ⟨.ints items, references⟩ :=
  rfl

theorem retainValue_single :
    retainValue (.array firstId) (single items references) =
      .ok () (single items (references + 1)) := rfl

/-- Giving back one of several references. -/
theorem releaseValue_single :
    releaseValue (.array firstId) (single items (references + 2)) =
      .ok () (single items (references + 1)) := rfl

/-- A place inside the bounds of an array. -/
theorem place?_ofNat {contents : Elements} {k : Nat} (inside : k < contents.size)
    (small : contents.size < 0x8000000000000000) :
    place? contents (Int64.ofNat k) = some k := by
  have index : (Int64.ofNat k).toInt = k := Int64.toInt_ofNat_of_lt (Nat.lt_trans inside small)
  have bounds : 0 ≤ (k : Int) ∧ (k : Int) < contents.size := by omega
  rw [place?, index, if_pos bounds, Int.toNat_natCast]

/-- An element of the only array is loaded. -/
theorem load_single {k : Nat} {n : Int64} (found : items[k]? = some n)
    (small : items.size < 0x8000000000000000) :
    load firstId (Int64.ofNat k) (single items references) =
      .ok (.int n) (single items references) := by
  have inside : k < (Elements.ints items).size := (Array.getElem?_eq_some_iff.mp found).1
  have element : (Elements.ints items).get? k = some (.int n) := by
    rw [Elements.get?, found]
    rfl
  have place : place? (.ints items) (Int64.ofNat k) = some k := place?_ofNat inside small
  simp only [load, inspect, Action.ofExcept, lookUp_single, bind, Except.bind, place,
    Option.bind_some, element]

/-- An element of the only array is stored. -/
theorem store_single {k : Nat} (inside : k < items.size)
    (small : items.size < 0x8000000000000000) (n : Int64) :
    store firstId (Int64.ofNat k) (.int n) (single items references) =
      .ok () (single (items.setIfInBounds k n) references) := by
  have found : place? (.ints items) (Int64.ofNat k) = some k := place?_ofNat inside small
  have place : storePlace (.ints items) (Int64.ofNat k) (.int n) = .ok k := by
    rw [storePlace, found]
    rfl
  simp only [store, lookUp_single, bind, Except.bind, place]
  rfl

end Heap

end HotPath
