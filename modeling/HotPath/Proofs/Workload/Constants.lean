import HotPath.Machine.Host
import HotPath.Proofs.Code.Interning
import HotPath.Workload.Basic

/-!
# The parts of a workload's program

Interning finds equal constants again, so the five constants of a workload may stand in
fewer than five places, depending on the sizes. Wherever they stand, each is found at the place that
is handed out for it, and the operand of an instruction can name it (`Supplied`).
-/

namespace HotPath

/-- What interning comes to. -/
structure Interned {α : Type} (table : Array α) (item : α) (place : Nat) (extended : Array α) :
    Prop where
  found : extended[place]? = some item
  kept : ∀ {place : Nat} {a : α}, table[place]? = some a → extended[place]? = some a
  size_le : extended.size ≤ table.size + 1

/-- Interning an integer finds or makes a place for it, and nothing else moves. -/
theorem Pool.Inverse.interned {pool : Pool Int64 Int64} (inverse : pool.Inverse id) (n : Int64) :
    Interned pool.constants n (pool.intern id n).1 (pool.intern id n).2.constants := by
  have own (pool : Pool Int64 Int64) : pool.keys id = pool.constants.toList := List.map_id _
  constructor
  case found =>
    have place : (pool.intern id n).1 = ((pool.intern id n).2.keys id).idxOf n :=
      inverse.intern_eq_idxOf List.prefix_rfl
    rw [place, ← Array.getElem?_toList, ← own]
    exact List.getElem?_idxOf (inverse.mem_intern n)
  case kept =>
    intro place a found
    obtain ⟨more, whole⟩ := inverse.prefix_intern n
    rw [← Array.getElem?_toList, ← own] at found ⊢
    have inside := (List.getElem?_eq_some_iff.mp found).1
    rw [← whole, List.getElem?_append_left inside]
    exact found
  case size_le =>
    rw [← Array.length_toList, ← own, inverse.keys_intern, own, ← Array.length_toList]
    split
    next => exact Nat.le_succ _
    next => exact Nat.le_of_eq List.length_append

namespace Workload

/-- The constants of a workload are found at their places. -/
structure Supplied (constants : Array Int64) (k : ConstantPlaces) (calls iterations : UInt32) :
    Prop where
  zero : constants[k.zero]? = some 0
  one : constants[k.one]? = some 1
  two : constants[k.two]? = some 2
  calls : constants[k.calls]? = some (Int64.ofNat calls.toNat)
  iterations : constants[k.iterations]? = some (Int64.ofNat iterations.toNat)
  few : constants.size ≤ 5

variable (w : Workload) (calls iterations : UInt32)

/-- The constants that a workload interns are where it says. -/
theorem places_supplied :
    Supplied (places {} calls iterations).2.ints.constants (places {} calls iterations).1
      calls iterations := by
  have start : Pool.Inverse id ({} : Pool Int64 Int64) := Pool.inverse_empty
  have zero := start.interned 0
  have one := (start.intern 0).interned 1
  have two := ((start.intern 0).intern 1).interned 2
  have fourth := (((start.intern 0).intern 1).intern 2).interned (Int64.ofNat calls.toNat)
  have fifth := ((((start.intern 0).intern 1).intern 2).intern (Int64.ofNat calls.toNat)).interned
    (Int64.ofNat iterations.toNat)
  constructor
  · exact fifth.kept (fourth.kept (two.kept (one.kept zero.found)))
  · exact fifth.kept (fourth.kept (two.kept one.found))
  · exact fifth.kept (fourth.kept two.found)
  · exact fifth.kept fourth.found
  · exact fifth.found
  · have sizes := fifth.size_le
    have fourth_le := fourth.size_le
    have two_le := two.size_le
    have one_le := one.size_le
    have zero_le : _ ≤ 0 + 1 := zero.size_le
    refine Nat.le_trans sizes ?_
    omega

/-- The places of the constants in the program of a workload. -/
def placesOf : ConstantPlaces := (places {} calls iterations).1

/-- The program of a workload has the constants that its functions push. -/
theorem program_supplied :
    Supplied (w.program calls iterations).intConstants (placesOf calls iterations)
      calls iterations :=
  places_supplied calls iterations

theorem functions_program :
    (w.program calls iterations).functions =
      #[w.worker (placesOf calls iterations) 0, w.main (placesOf calls iterations) 0] := rfl

theorem functions_worker :
    (w.program calls iterations).functions[0]? =
      some (w.worker (placesOf calls iterations) 0) := rfl

theorem functions_main :
    (w.program calls iterations).functions[1]? =
      some (w.main (placesOf calls iterations) 0) := rfl

/-- The host calls the function that prints the total. -/
theorem indexOf?_entry :
    (w.program calls iterations).indexOf? (w.program calls iterations).entry = some 1 := by
  have entry : (w.program calls iterations).entry = "main" := rfl
  have worker : (w.worker (placesOf calls iterations) 0).name ≠ "main" := by
    cases w <;> simp [worker, Function.make, workerName]
  have main : (w.main (placesOf calls iterations) 0).name = "main" := by
    cases w <;> rfl
  rw [Program.indexOf?, entry, functions_program, List.findIdx?_toArray, List.findIdx?_cons,
    decide_eq_false worker, List.findIdx?_cons, decide_eq_true main]
  rfl

/-- The host calls the second function. -/
theorem entryOf_program :
    Machine.entryOf (w.program calls iterations) (w.program calls iterations).entry [] =
      .ok 1 := by
  have checked : (w.main (placesOf calls iterations) 0).checkArguments [] = .ok () := by
    cases w <;> rfl
  simp only [Machine.entryOf, indexOf?_entry, functions_main, checked]
  rfl

end Workload

end HotPath
