import HotPath.Proofs.Store.Single
import HotPath.Proofs.Workload.Pieces
import Mathlib.Data.Nat.Fib.Basic

/-!
# What the workers answer

Each worker is called with one argument. `Answers` says what it gives back, wherever it is called
from, and `Overflows` that the calls become too deep. The recursion of `fib` needs
one call more at once for each step down from its argument, and so overflows
exactly when its argument and the number of callers exceed the limit together. The other
workers make no calls of their own; `fib` makes one less than twice the next Fibonacci
number, its own call included.
-/

namespace HotPath

namespace Machine

/-- Called here with this argument, a function gives back a value and leaves this heap, and makes
so many calls of its own. -/
def Answers (p : Program) (f : Function) (site : Site) (output : Array String) (argument : Value)
    (before : Heap) (value : Value) (after : Heap) (made : Nat := 0) : Prop :=
  ∃ block, f.code.Holds 0 block ∧
    Returns p site block ⟨argument :: .replicate (f.localCount - 1) .null, [], before, output⟩
      value after made

/-- Called here with this argument, a function makes too many calls that have not returned. -/
def Overflows (p : Program) (f : Function) (site : Site) (output : Array String) (argument : Value)
    (before : Heap) : Prop :=
  ∃ block, f.code.Holds 0 block ∧
    Fails p site block ⟨argument :: .replicate (f.localCount - 1) .null, [], before, output⟩
      (.callStackOverflow 1024)

section Calling

variable {p : Program} {f : Function} {index : Nat} {site : Site} {slots rest : List Value}
  {before after : Heap} {output : Array String} {argument value : Value} {made : Nat}

/-- Calling a function that answers leaves the answer on the operands, and is one call more. -/
theorem Answers.does_call {few : rest.length ≤ 4} {deeper : site.depth + 1 < 1024}
    (answers : Answers p f (site.callee rest few deeper) output argument before value after made)
    (fits : index < 0x1000000) (found : p.functions[index]? = some f) (arity : f.arity = 1) :
    Does p site [.make .call index] ⟨slots, argument :: rest, before, output⟩
      ⟨slots, value :: rest, after, output⟩ (made + 1) := by
  obtain ⟨block, body, returns⟩ := answers
  exact Machine.does_call few deeper rfl (Instruction.index_make fits) found arity body returns

/-- Calling a function that overflows faults. -/
theorem Overflows.fails_call {few : rest.length ≤ 4} {deeper : site.depth + 1 < 1024}
    (overflows : Overflows p f (site.callee rest few deeper) output argument before)
    (fits : index < 0x1000000) (found : p.functions[index]? = some f) (arity : f.arity = 1) :
    Fails p site [.make .call index] ⟨slots, argument :: rest, before, output⟩
      (.callStackOverflow 1024) := by
  obtain ⟨block, body, fails⟩ := overflows
  exact Machine.fails_call few deeper rfl (Instruction.index_make fits) found arity body fails

end Calling

end Machine

namespace Workload

open Machine

variable {p : Program} {k : ConstantPlaces} {calls iterations : UInt32} {index n : Nat}
  (supplied : Supplied p.intConstants k calls iterations)

section Counting

variable (site : Site) (heap : Heap) (output : Array String) (small : n < 0x8000000000000000)
include supplied small

/-- The counter answers its argument. -/
theorem counter_answers :
    Answers p (counter.worker k index) site output (.int (.ofNat n)) heap
      (.int (.ofNat n)) heap := by
  refine ⟨_, .of_spells (Code.spells_ofList _), ?_⟩
  let slots (j : Nat) : List Value := [.int (.ofNat n), .int (.ofNat j)]
  let heaps (_ : Nat) : Heap := heap
  have counts : Does p site (countedLoop k 1 [.make .loadLocal 0] [])
      ⟨(slots 0).set 1 .null, [], heaps 0, output⟩ ⟨slots n, [], heaps n, output⟩ := by
    refine does_countedLoop supplied small (by decide) ?_ ?_ ?_ rfl
    · intro j _
      rfl
    · intro j _
      exact pushes_slot rfl rfl
    · intro j _
      exact .nil p site _
  exact counts.returns rfl (returns_slot rfl rfl rfl)

/-- The countdown answers its argument, which it has counted down meanwhile. -/
theorem countdown_answers :
    Answers p (countdown.worker k index) site output (.int (.ofNat n)) heap
      (.int (.ofNat n)) heap := by
  refine ⟨_, .of_spells (Code.spells_ofList _), ?_⟩
  let scene (j : Nat) : Scene :=
    ⟨[.int (.ofNat (n - j)), .int (.ofNat j)], [], heap, output⟩
  have tests (j : Nat) (before : j ≤ n) : Does p site
      [.make .loadLocal 0, .make .pushInt k.zero, .make (.compareInt .gt)] (scene j)
      { scene j with operands := [.bool (0 < n - j)] } := by
    have decided : Comparison.gt.ints (.ofNat (n - j)) 0 = decide (0 < n - j) :=
      decide_eq_decide.mpr (Int64.ofNat_lt_iff_lt (by decide) (by omega))
    refine .cons (does_loadInt rfl) ?_
    refine .cons (does_constant supplied.few supplied.zero) ?_
    exact does_compare decided
  have clears : Does p site (clear k 1) ⟨[.int (.ofNat n), .null], [], heap, output⟩ (scene 0) :=
    does_clear supplied rfl rfl
  have loops : Does p site
      (Block.loop [.make .loadLocal 0, .make .pushInt k.zero, .make (.compareInt .gt)]
        (decrement k 0 ++ increment k 1)) (scene 0) (scene n) := by
    refine does_loop (by simp [decrement, increment]) ?_ ?_ ?_
    · intro j before
      have goes := tests j (Nat.le_of_lt before)
      rwa [decide_eq_true (Nat.sub_pos_of_lt before)] at goes
    · have stops := tests n (Nat.le_refl n)
      rwa [decide_eq_false (by omega)] at stops
    · intro j before
      have down : Int64.ofNat (n - j) - 1 = Int64.ofNat (n - (j + 1)) :=
        (Int64.ofNat_sub (n - j) 1 (by omega)).symm
      have up : Int64.ofNat j + 1 = Int64.ofNat (j + 1) := (Int64.ofNat_add j 1).symm
      have lowers : Does p site (decrement k 0) (scene j)
          ⟨[.int (.ofNat (n - j) - 1), .int (.ofNat j)], [], heap, output⟩ :=
        does_decrement supplied rfl
      have raises : Does p site (increment k 1)
          ⟨[.int (.ofNat (n - j) - 1), .int (.ofNat j)], [], heap, output⟩
          ⟨[.int (.ofNat (n - j) - 1), .int (.ofNat j + 1)], [], heap, output⟩ :=
        does_increment supplied rfl
      rw [down, up] at raises
      rw [down] at lowers
      exact lowers.append raises
  exact (clears.append loops).returns rfl (returns_slot rfl rfl rfl)

end Counting

section Adding

/-- The sum of the first elements of an array. -/
def sumOfFirst (items : Array Int64) : Nat → Int64
  | 0 => 0
  | n + 1 => sumOfFirst items n + items.getD n 0

variable (site : Site) (output : Array String) (items : Array Int64) (references : Nat)
  (small : items.size < 0x8000000000000000)

/-- A second reference to the array is given back when its length has been read. -/
theorem pushes_length {slots : List Value} (holds : slots[0]? = some (.array Heap.firstId)) :
    Pushes p site [.make .loadLocal 0, .make .arrayLength] slots output
      (.single items (references + 1)) (.int (.ofNat items.size))
      (.single items (references + 1)) := by
  intro operands few
  have loads : Does p site [.make .loadLocal 0]
      ⟨slots, operands, .single items (references + 1), output⟩
      ⟨slots, .array Heap.firstId :: operands, .single items (references + 2), output⟩ :=
    does_load holds rfl (by decide) (Nat.lt_of_le_of_lt few (by decide))
  have counts : Does p site [.make .arrayLength]
      ⟨slots, .array Heap.firstId :: operands, .single items (references + 2), output⟩
      ⟨slots, .int (.ofNat items.size) :: operands, .single items (references + 1), output⟩ :=
    does_arrayLength rfl rfl rfl (Nat.lt_of_le_of_lt few (by decide))
  exact loads.append counts

include small

/-- One round of the loop that adds the elements up. -/
theorem does_addElement {j : Nat} (inside : j < items.size) (n : Int64) :
    Does p site [.make .loadLocal 2, .make .loadLocal 0, .make .loadLocal 1, .make .arrayLoad,
        .make (.intBinary .add), .make .storeLocal 2]
      ⟨[.array Heap.firstId, .int (.ofNat j), .int n], [], .single items (references + 1), output⟩
      ⟨[.array Heap.firstId, .int (.ofNat j), .int (n + items.getD j 0)], [],
        .single items (references + 1), output⟩ := by
  let slots : List Value := [.array Heap.firstId, .int (.ofNat j), .int n]
  have element : items[j]? = some (items.getD j 0) := by
    rw [Array.getD_eq_getD_getElem?, Array.getElem?_eq_getElem inside]
    rfl
  have loads : Does p site [.make .arrayLoad]
      ⟨slots, [.int (.ofNat j), .array Heap.firstId, .int n], .single items (references + 2),
        output⟩
      ⟨slots, [.int (items.getD j 0), .int n], .single items (references + 1), output⟩ :=
    does_arrayLoad rfl (Heap.load_single items (references + 2) element small)
      (Heap.releaseValue_single items references) (by simp)
  refine .cons (does_loadInt rfl) ?_
  refine .cons (does_load rfl (Heap.retainValue_single items _)) ?_
  refine .cons (does_loadInt rfl) ?_
  refine .cons loads ?_
  exact .cons (does_arithmetic rfl rfl) (does_store rfl rfl)

include supplied

/-- The worker that adds up an array gives its reference back. -/
theorem arraySum_answers :
    Answers p (arraySum.worker k index) site output (.array Heap.firstId)
      (.single items (references + 2)) (.int (sumOfFirst items items.size))
      (.single items (references + 1)) := by
  refine ⟨_, .of_spells (Code.spells_ofList _), ?_⟩
  let slots (j : Nat) : List Value :=
    [.array Heap.firstId, .int (.ofNat j), .int (sumOfFirst items j)]
  let heaps (_ : Nat) : Heap := .single items (references + 2)
  have clears : Does p site (clear k 2)
      ⟨[.array Heap.firstId, .null, .null], [], heaps 0, output⟩
      ⟨(slots 0).set 1 .null, [], heaps 0, output⟩ :=
    does_clear supplied rfl rfl
  have adds : Does p site
      (countedLoop k 1 [.make .loadLocal 0, .make .arrayLength]
        [.make .loadLocal 2, .make .loadLocal 0, .make .loadLocal 1, .make .arrayLoad,
          .make (.intBinary .add), .make .storeLocal 2])
      ⟨(slots 0).set 1 .null, [], heaps 0, output⟩
      ⟨slots items.size, [], heaps items.size, output⟩ := by
    refine does_countedLoop supplied small (by decide) ?_ ?_ ?_ rfl
    · intro j _
      rfl
    · intro j _
      exact pushes_length site output items (references + 1) rfl
    · intro j inside
      exact does_addElement site output items (references + 1) small inside _
  refine (clears.append adds).returns rfl ?_
  exact returns_slot rfl rfl rfl

end Adding

section Recursion

/-- The sequence from any two numbers goes on with the sum of its last two. -/
theorem fibonacciFrom_add_two (n : Nat) (a b : Int64) :
    fibonacciFrom (n + 2) a b = fibonacciFrom (n + 1) a b + fibonacciFrom n a b := by
  induction n generalizing a b with
  | zero => exact Int64.add_comm a b
  | succ n ih => exact ih b (a + b)

/-- How many calls `fib` makes of itself when it has been called. -/
def fibCalls (n : Nat) : Nat := 2 * Nat.fib (n + 1) - 2

/-- A number past the first two takes the calls for the two before it, and these two calls. -/
theorem fibCalls_add_two (n : Nat) :
    fibCalls (n + 2) = fibCalls (n + 1) + 1 + (fibCalls n + 1) := by
  have next : Nat.fib (n + 3) = Nat.fib (n + 1) + Nat.fib (n + 2) := Nat.fib_add_two
  have first : 0 < Nat.fib (n + 1) := Nat.fib_pos.mpr (Nat.succ_pos n)
  have second : 0 < Nat.fib (n + 2) := Nat.fib_pos.mpr (Nat.succ_pos (n + 1))
  change 2 * Nat.fib (n + 3) - 2 =
    2 * Nat.fib (n + 2) - 2 + 1 + (2 * Nat.fib (n + 1) - 2 + 1)
  omega

variable {site : Site} {heap : Heap} {output : Array String} {rest : List Value}

section Supplied

include supplied

/-- Whether the argument is the answer. -/
theorem does_compareTwo {smallest : Bool} (small : n < 0x8000000000000000)
    (decided : decide (n < 2) = smallest) :
    Does p site [.make .loadLocal 0, .make .pushInt k.two, .make (.compareInt .lt)]
      ⟨[.int (.ofNat n)], [], heap, output⟩ ⟨[.int (.ofNat n)], [.bool smallest], heap, output⟩ := by
  have compared : Comparison.lt.ints (.ofNat n) 2 = smallest := by
    rw [← decided]
    exact decide_eq_decide.mpr (Int64.ofNat_lt_iff_lt small (by decide))
  refine .cons (does_loadInt rfl) ?_
  refine .cons (does_constant supplied.few supplied.two) ?_
  exact does_compare compared

/-- An argument that is the answer is returned. -/
theorem returns_smallest (less : n < 2) :
    Returns p site
      ([.make .loadLocal 0, .make .pushInt k.two, .make (.compareInt .lt)] ++
        Block.skipUnless (returnSlot 0))
      ⟨[.int (.ofNat n)], [], heap, output⟩ (.int (.ofNat n)) heap := by
  refine (does_compareTwo supplied (Nat.lt_trans less (by decide)) (decide_eq_true less)).returns
    rfl ?_
  have passes : Does p site [.make (.jump (.when false)) ((returnSlot 0).length + 1)]
      ⟨[.int (.ofNat n)], [.bool true], heap, output⟩ ⟨[.int (.ofNat n)], [], heap, output⟩ :=
    does_passJump Bool.noConfusion rfl
  exact passes.returns rfl (returns_slot rfl rfl rfl)

/-- An argument that is not the answer leads on to the calls. -/
theorem does_recursionTest (small : n < 0x8000000000000000) (large : 2 ≤ n) :
    Does p site
      ([.make .loadLocal 0, .make .pushInt k.two, .make (.compareInt .lt)] ++
        Block.skipUnless (returnSlot 0))
      ⟨[.int (.ofNat n)], [], heap, output⟩ ⟨[.int (.ofNat n)], [], heap, output⟩ :=
  (does_compareTwo supplied small (decide_eq_false (Nat.not_lt_of_le large))).append
    (does_skipUnless (by decide) rfl)

end Supplied

/-- The argument of a call is some steps down from the argument of the caller. -/
theorem does_decrease {place steps : Nat} (few : p.intConstants.size ≤ 5)
    (found : p.intConstants[place]? = some (.ofNat steps)) (down : steps ≤ n)
    (short : rest.length ≤ 4) :
    Does p site [.make .loadLocal 0, .make .pushInt place, .make (.intBinary .sub)]
      ⟨[.int (.ofNat n)], rest, heap, output⟩
      ⟨[.int (.ofNat n)], .int (.ofNat (n - steps)) :: rest, heap, output⟩ := by
  have difference : Int64.ofNat n - Int64.ofNat steps = Int64.ofNat (n - steps) :=
    (Int64.ofNat_sub n steps down).symm
  refine .cons (does_loadInt rfl (by decide) (by omega)) ?_
  refine .cons (does_constant few found (by simp only [List.length_cons]; omega)) ?_
  exact does_arithmetic rfl difference (by omega)

variable (recursive : p.functions[index]? = some (fib.worker k index)) (fits : index < 0x1000000)
include supplied recursive fits

/-- The answers of `fib` are the Fibonacci numbers, as long as the limit leaves room for as many
calls as the argument says. -/
theorem fib_answers (room : site.depth + n ≤ 1024) :
    Answers p (fib.worker k index) site output (.int (.ofNat n)) heap
      (.int (fibonacciFrom n 0 1)) heap (fibCalls n) := by
  induction n using Nat.strong_induction_on generalizing site with
  | h n ih =>
    refine ⟨_, .of_spells (Code.spells_ofList _), ?_⟩
    rcases Nat.lt_or_ge n 2 with less | large
    · obtain ⟨smallest, none_made⟩ : fibonacciFrom n 0 1 = .ofNat n ∧ fibCalls n = 0 := by
        rcases Nat.lt_or_ge n 1 with none_left | one_left
        · obtain rfl : n = 0 := by omega
          exact ⟨rfl, rfl⟩
        · obtain rfl : n = 1 := by omega
          exact ⟨rfl, rfl⟩
      rw [smallest, none_made]
      exact (((returns_smallest supplied less).followed _).followed _).followed _
    · have deeper : site.depth + 1 < 1024 := by omega
      -- Each call is made with the answers of the calls before it still on the stack.
      have recurs {place steps : Nat} (found : p.intConstants[place]? = some (.ofNat steps))
          (least : 1 ≤ steps) (down : steps ≤ n) {rest : List Value} (few : rest.length ≤ 4) :
          Does p site
            [.make .loadLocal 0, .make .pushInt place, .make (.intBinary .sub), .make .call index]
            ⟨[.int (.ofNat n)], rest, heap, output⟩
            ⟨[.int (.ofNat n)], .int (fibonacciFrom (n - steps) 0 1) :: rest, heap, output⟩
            (fibCalls (n - steps) + 1) := by
        have callee_room : (site.callee rest few deeper).depth + (n - steps) ≤ 1024 := by
          simp only [Site.callee]
          omega
        exact (does_decrease supplied.few found down few).append
          ((ih (n - steps) (by omega) callee_room).does_call fits recursive rfl)
      obtain ⟨total, made⟩ : fibonacciFrom (n - 1) 0 1 + fibonacciFrom (n - 2) 0 1 =
          fibonacciFrom n 0 1 ∧ fibCalls (n - 1) + 1 + (fibCalls (n - 2) + 1) = fibCalls n := by
        obtain ⟨m, rfl⟩ := Nat.exists_eq_add_of_le' large
        exact ⟨(fibonacciFrom_add_two m 0 1).symm, (fibCalls_add_two m).symm⟩
      have one : p.intConstants[k.one]? = some (.ofNat 1) := supplied.one
      have two : p.intConstants[k.two]? = some (.ofNat 2) := supplied.two
      have adds : Does p site [.make (.intBinary .add)]
          ⟨[.int (.ofNat n)], [.int (fibonacciFrom (n - 2) 0 1), .int (fibonacciFrom (n - 1) 0 1)],
            heap, output⟩
          ⟨[.int (.ofNat n)], [.int (fibonacciFrom n 0 1)], heap, output⟩ :=
        does_arithmetic rfl total
      rw [← made]
      exact (((does_recursionTest supplied (by omega) large).append
        (recurs one (by decide) (Nat.le_of_lt large) (by decide))).andThen
          (recurs two (by decide) large (by simp))).andReturns rfl
            (adds.returns rfl (returns_ret rfl rfl))

/-- When the limit leaves no room for as many calls as the argument says, `fib` overflows it. -/
theorem fib_overflows (small : n < 0x8000000000000000) (crowded : 1024 < site.depth + n) :
    Overflows p (fib.worker k index) site output (.int (.ofNat n)) heap := by
  induction n generalizing site with
  | zero =>
    have shallow := site.shallow
    omega
  | succ n ih =>
    have shallow := site.shallow
    have fails : Fails p site [.make .call index]
        ⟨[.int (.ofNat (n + 1))], [.int (.ofNat (n + 1 - 1))], heap, output⟩
        (.callStackOverflow 1024) := by
      rcases Nat.lt_or_ge (site.depth + 1) 1024 with deeper | deepest
      · have callee_crowded : 1024 < (site.callee [] (by decide) deeper).depth + n := by
          simp only [Site.callee]
          omega
        exact (ih (by omega) callee_crowded).fails_call fits recursive rfl
      · exact fails_deep rfl (Instruction.index_make fits) recursive (by omega)
    refine ⟨_, .of_spells (Code.spells_ofList _), ?_⟩
    have one : p.intConstants[k.one]? = some (.ofNat 1) := supplied.one
    have recurs := (does_decrease supplied.few one (by omega) (by decide)).fails rfl fails
    exact (((does_recursionTest supplied small (by omega)).fails rfl recurs).followed _).followed _

end Recursion

end Workload

end HotPath
