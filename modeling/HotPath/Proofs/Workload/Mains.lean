import HotPath.Proofs.Workload.Workers
import Mathlib.Data.Nat.Choose.Basic

/-!
# What the programs print

The function that the host calls adds up what the worker answers to a number of calls, and prints
the total: `Prints` if it gets there, and `Collapses` if a call or an array cannot be
made. The array of `arraySum` is filled with its own indices first, so that each
answer is the sum of the numbers below its size.
-/

namespace HotPath

namespace Machine

/-- Called by the host, a function without parameters prints one line and leaves this heap, and
makes so many calls. -/
def Prints (p : Program) (f : Function) (line : String) (heap : Heap) (made : Nat) : Prop :=
  ∃ block, f.code.Holds 0 block ∧
    Finishes p block ⟨.replicate f.localCount .null, [], .empty, #[]⟩ heap #[line] made

/-- Called by the host, a function without parameters faults before it has printed anything. -/
def Collapses (p : Program) (f : Function) (fault : Fault) : Prop :=
  ∃ block, f.code.Holds 0 block ∧
    Fails p .outermost block ⟨.replicate f.localCount .null, [], .empty, #[]⟩ fault

end Machine

namespace Workload

open Machine

variable {p : Program} {k : ConstantPlaces} {calls iterations : UInt32} {worker : Nat}
  {f : Function} (supplied : Supplied p.intConstants k calls iterations)
  (found : p.functions[worker]? = some f) (arity : f.arity = 1) (fits : worker < 0x1000000)

/-- Sizes are integers that do not wrap around. -/
theorem toNat_lt_intMax (size : UInt32) : size.toNat < 0x8000000000000000 :=
  Nat.lt_trans size.toNat_lt (by decide)

/-- The total grows by one answer. -/
theorem total_succ (j : Nat) (each : Int64) :
    Int64.ofNat j * each + each = Int64.ofNat (j + 1) * each := by
  have next : Int64.ofNat (j + 1) = Int64.ofNat j + 1 := Int64.ofNat_add j 1
  rw [next, Int64.add_mul, Int64.one_mul]

section Answers

variable {slot sum : Nat} {state : Nat → List Value} {heap between : Heap} {argument : Block}
  {value previous : Value} {each : Int64} {made : Nat}

include supplied found arity fits

/-- The loop that calls the worker and adds up what it answers. -/
theorem does_addAnswers (short : argument.length ≤ 16)
    (counts : ∀ j, (state j)[slot]? = some (.int (.ofNat j)))
    (sums : ∀ j, (state j)[sum]? = some (.int (.ofNat j * each)))
    (grows : ∀ j, (state j).set sum (.int (.ofNat (j + 1) * each)) =
      (state (j + 1)).set slot (.int (.ofNat j)))
    (argues : ∀ j, Pushes p .outermost argument (state j) #[] heap value between)
    (answers : 0 < calls.toNat → ∀ site : Site, site.depth = 1 →
      Answers p f site #[] value between (.int each) heap made)
    (plain : Heap.releaseValue previous heap = .ok () heap)
    (inside : slot < 16 := by decide) (within : sum < 16 := by decide) :
    Does p .outermost (countedLoop k slot [.make .pushInt k.calls] (addCall sum argument worker))
      ⟨(state 0).set slot previous, [], heap, #[]⟩ ⟨state calls.toNat, [], heap, #[]⟩
      (calls.toNat * (made + 1)) := by
  let heaps (_ : Nat) : Heap := heap
  suffices adds : Does p .outermost
      (countedLoop k slot [.make .pushInt k.calls] (addCall sum argument worker))
      ⟨(state 0).set slot previous, [], heaps 0, #[]⟩
      ⟨state calls.toNat, [], heaps calls.toNat, #[]⟩ (calls.toNat * (made + 1)) from adds
  refine does_countedLoop_of_calls supplied (toNat_lt_intMax calls) ?_ ?_ ?_ ?_ plain inside
  · simp only [addCall, List.length_append, List.length_cons, List.length_nil]
    omega
  · exact fun j _ => counts j
  · exact fun j _ => pushes_constant supplied.few supplied.calls
  · intro j before
    let total := Int64.ofNat j * each
    have few : [Value.int total].length ≤ 4 := by simp
    have called : 0 < calls.toNat := Nat.zero_lt_of_lt before
    have answered : Does p .outermost [.make .call worker]
        ⟨state j, [value, .int total], between, #[]⟩ ⟨state j, [.int each, .int total], heap, #[]⟩
        (made + 1) :=
      (answers called (Site.outermost.callee [.int total] few (by decide)) rfl).does_call
        fits found arity
    have added : Does p .outermost (addCall sum argument worker) ⟨state j, [], heap, #[]⟩
        ⟨(state j).set sum (.int (total + each)), [], heap, #[]⟩ (made + 1) :=
      does_addCall (sums j) (argues j) answered within
    rw [total_succ, grows] at added
    exact added

end Answers

section Scalar

/-- The slots after a number of calls. -/
def scalarSlots (each : Int64) (j : Nat) : List Value := [.int (.ofNat j), .int (.ofNat j * each)]

include supplied

/-- The total is cleared before the first round. -/
theorem does_clearTotal (each : Int64) :
    Does p .outermost (clear k 1) ⟨[.null, .null], [], .empty, #[]⟩
      ⟨(scalarSlots each 0).set 0 .null, [], .empty, #[]⟩ := by
  have nothing : Int64.ofNat 0 * each = 0 := Int64.zero_mul
  have start : (scalarSlots each 0).set 0 .null = [.null, .int 0] := by
    rw [scalarSlots, nothing]
    rfl
  rw [start]
  exact does_clear supplied rfl rfl

include found arity fits

/-- Adding up what the worker answers for the size. -/
theorem scalar_finishes {each : Int64} {made : Nat}
    (answers : 0 < calls.toNat → ∀ site : Site, site.depth = 1 →
      Answers p f site #[] (.int (.ofNat iterations.toNat)) .empty (.int each) .empty made) :
    Finishes p
      (clear k 1 ++
        countedLoop k 0 [.make .pushInt k.calls] (addCall 1 [.make .pushInt k.iterations] worker) ++
        printSlot 1)
      ⟨[.null, .null], [], .empty, #[]⟩ .empty
      #[toString (Int64.ofNat calls.toNat * each).toInt] (calls.toNat * (made + 1)) := by
  have adds : Does p .outermost
      (countedLoop k 0 [.make .pushInt k.calls] (addCall 1 [.make .pushInt k.iterations] worker))
      ⟨(scalarSlots each 0).set 0 .null, [], .empty, #[]⟩
      ⟨scalarSlots each calls.toNat, [], .empty, #[]⟩ (calls.toNat * (made + 1)) := by
    refine does_addAnswers supplied found arity fits (by simp) ?_ ?_ ?_ ?_ answers rfl
    · exact fun _ => rfl
    · exact fun _ => rfl
    · exact fun _ => rfl
    · exact fun _ => pushes_constant supplied.few supplied.iterations
  exact ((does_clearTotal supplied each).append adds).andFinishes (finishes_printSlot rfl rfl)

/-- The first call of a worker that makes too many calls is not returned from. -/
theorem scalar_fails (called : 0 < calls.toNat)
    (overflows : ∀ site : Site, site.depth = 1 →
      Overflows p f site #[] (.int (.ofNat iterations.toNat)) .empty) :
    Fails p .outermost
      (clear k 1 ++
        countedLoop k 0 [.make .pushInt k.calls] (addCall 1 [.make .pushInt k.iterations] worker) ++
        printSlot 1)
      ⟨[.null, .null], [], .empty, #[]⟩ (.callStackOverflow 1024) := by
  have small := toNat_lt_intMax calls
  have clears : Does p .outermost (clear k 0) ⟨[.null, .int 0], [], .empty, #[]⟩
      ⟨[.int 0, .int 0], [], .empty, #[]⟩ := does_clear supplied rfl rfl
  have goes : Does p .outermost
      (.make .loadLocal 0 :: [.make .pushInt k.calls] ++ [.make (.compareInt .lt)])
      ⟨[.int 0, .int 0], [], .empty, #[]⟩ ⟨[.int 0, .int 0], [.bool true], .empty, #[]⟩ := by
    rw [← decide_eq_true called]
    exact does_counted small (Nat.zero_le _) rfl (pushes_constant supplied.few supplied.calls)
  have call : Fails p .outermost [.make .call worker]
      ⟨[.int 0, .int 0], [.int (.ofNat iterations.toNat), .int 0], .empty, #[]⟩
      (.callStackOverflow 1024) :=
    (overflows (Site.outermost.callee [.int 0] (by simp) (by decide)) rfl).fails_call
      fits found arity
  have round : Fails p .outermost
      (addCall 1 [.make .pushInt k.iterations] worker ++ increment k 0)
      ⟨[.int 0, .int 0], [], .empty, #[]⟩ (.callStackOverflow 1024) :=
    (fails_addCall rfl (pushes_constant supplied.few supplied.iterations) call).followed _
  have loop := clears.fails rfl (fails_loop goes round)
  exact ((does_clear supplied rfl rfl).fails rfl loop).followed _

end Scalar

section Filling

/-- An array of zeros whose first elements have been replaced by their indices. -/
def filled (size : Nat) : Nat → Array Int64
  | 0 => .replicate size 0
  | n + 1 => (filled size n).setIfInBounds n (.ofNat n)

/-- An array keeps its size while it is filled. -/
theorem size_filled (size n : Nat) : (filled size n).size = size := by
  induction n with
  | zero => exact Array.size_replicate
  | succ n ih =>
    rw [filled, Array.size_setIfInBounds]
    exact ih

/-- Once a place has been filled it holds its own index. -/
theorem getElem?_filled {size n j : Nat} (inside : j < n) (bound : n ≤ size) :
    (filled size n)[j]? = some (.ofNat j) := by
  induction n with
  | zero => exact absurd inside (Nat.not_lt_zero j)
  | succ n ih =>
    have present : n < (filled size n).size := by
      rw [size_filled]
      exact bound
    rw [filled]
    rcases Nat.lt_succ_iff_lt_or_eq.mp inside with earlier | rfl
    · rw [Array.getElem?_setIfInBounds_ne (Nat.ne_of_gt earlier)]
      exact ih earlier (Nat.le_of_succ_le bound)
    · exact Array.getElem?_setIfInBounds_self_of_lt present

/-- The sum of the indices. -/
theorem sumOfFirst_filled {size : Nat} (n : Nat) (bound : n ≤ size) :
    sumOfFirst (filled size size) n = .ofNat (n * (n - 1) / 2) := by
  induction n with
  | zero => rfl
  | succ n ih =>
    have element : (filled size size).getD n 0 = .ofNat n := by
      rw [Array.getD_eq_getD_getElem?, getElem?_filled bound (Nat.le_refl size)]
      rfl
    rw [sumOfFirst, ih (Nat.le_of_succ_le bound), element, ← Int64.ofNat_add, Nat.triangle_succ]

end Filling

section Array

variable {n : Nat}

/-- A length that is within the limit is taken. -/
theorem arrayLength_ofNat (bound : n ≤ 0x1000000) :
    arrayLength 0x1000000 (.ofNat n) = .ok n := by
  have length : (Int64.ofNat n).toInt = n :=
    Int64.toInt_ofNat_of_lt (Nat.lt_of_le_of_lt bound (by decide))
  have sign : ¬ (n : Int) < 0 := by omega
  have limit : ¬ 0x1000000 < n := by omega
  rw [arrayLength, length, if_neg sign, Int.toNat_natCast, if_neg limit]

/-- A length past the limit is refused. -/
theorem arrayLength_of_lt (long : 0x1000000 < n) (small : n < 0x8000000000000000) :
    arrayLength 0x1000000 (.ofNat n) =
      .error (.arrayIndexOutOfBounds (.ofNat n) 0x1000000) := by
  have length : (Int64.ofNat n).toInt = n := Int64.toInt_ofNat_of_lt small
  have sign : ¬ (n : Int) < 0 := by omega
  rw [arrayLength, length, if_neg sign, Int.toNat_natCast, if_pos long]

/-- One round of the loop that fills the array. -/
theorem does_fill {j : Nat} (inside : j < n) (small : n < 0x8000000000000000)
    (output : Array String) :
    Does p .outermost [.make .loadLocal 0, .make .loadLocal 1, .make .loadLocal 1, .make .arrayStore]
      ⟨[.array Heap.firstId, .int (.ofNat j), .null, .null], [], .single (filled n j) 1, output⟩
      ⟨[.array Heap.firstId, .int (.ofNat j), .null, .null], [], .single (filled n (j + 1)) 1,
        output⟩ := by
  let slots : List Value := [.array Heap.firstId, .int (.ofNat j), .null, .null]
  have stored : Heap.store Heap.firstId (.ofNat j) (.int (.ofNat j)) (.single (filled n j) 2) =
      .ok () (.single (filled n (j + 1)) 2) := by
    apply Heap.store_single
    · rw [size_filled]
      exact inside
    · rw [size_filled]
      exact small
  have stores : Does p .outermost [.make .arrayStore]
      ⟨slots, [.int (.ofNat j), .int (.ofNat j), .array Heap.firstId], .single (filled n j) 2,
        output⟩
      ⟨slots, [], .single (filled n (j + 1)) 1, output⟩ :=
    does_arrayStore rfl stored (Heap.releaseValue_single _ 0)
  refine .cons (does_load rfl (Heap.retainValue_single _ 1)) ?_
  refine .cons (does_loadInt rfl) ?_
  exact .cons (does_loadInt rfl) stores

include supplied

/-- Creating the array and filling it with its own indices. -/
theorem does_createArray (bound : iterations.toNat ≤ 0x1000000) :
    Does p .outermost
      ([.make .pushInt k.iterations, .make .newArray ElementType.int.tag, .make .storeLocal 0] ++
        countedLoop k 1 [.make .pushInt k.iterations]
          [.make .loadLocal 0, .make .loadLocal 1, .make .loadLocal 1, .make .arrayStore])
      ⟨[.null, .null, .null, .null], [], .empty, #[]⟩
      ⟨[.array Heap.firstId, .int (.ofNat iterations.toNat), .null, .null], [],
        .single (filled iterations.toNat iterations.toNat) 1, #[]⟩ := by
  let n := iterations.toNat
  have small := toNat_lt_intMax iterations
  let slots (j : Nat) : List Value := [.array Heap.firstId, .int (.ofNat j), .null, .null]
  let heaps (j : Nat) : Heap := .single (filled n j) 1
  have creates : Does p .outermost
      [.make .pushInt k.iterations, .make .newArray ElementType.int.tag, .make .storeLocal 0]
      ⟨[.null, .null, .null, .null], [], .empty, #[]⟩
      ⟨(slots 0).set 1 .null, [], heaps 0, #[]⟩ := by
    refine .cons (does_constant supplied.few supplied.iterations) ?_
    refine .cons (does_newArray rfl rfl (arrayLength_ofNat bound) (Heap.allocate_empty n)
      (by decide)) ?_
    exact does_store rfl rfl
  have fills : Does p .outermost
      (countedLoop k 1 [.make .pushInt k.iterations]
        [.make .loadLocal 0, .make .loadLocal 1, .make .loadLocal 1, .make .arrayStore])
      ⟨(slots 0).set 1 .null, [], heaps 0, #[]⟩ ⟨slots n, [], heaps n, #[]⟩ := by
    refine does_countedLoop supplied small (by simp) ?_ ?_ ?_ rfl
    · intro j _
      rfl
    · intro j _
      exact pushes_constant supplied.few supplied.iterations
    · intro j inside
      exact does_fill inside small #[]
  exact creates.append fills

/-- An array of that size cannot be created. -/
theorem array_fails (long : 0x1000000 < iterations.toNat) (next : Block) :
    Fails p .outermost
      ([.make .pushInt k.iterations, .make .newArray ElementType.int.tag, .make .storeLocal 0] ++
        next)
      ⟨[.null, .null, .null, .null], [], .empty, #[]⟩
      (.arrayIndexOutOfBounds (.ofNat iterations.toNat) 0x1000000) := by
  have refused := arrayLength_of_lt long (toNat_lt_intMax iterations)
  have pushes : Does p .outermost [.make .pushInt k.iterations]
      ⟨[.null, .null, .null, .null], [], .empty, #[]⟩
      ⟨[.null, .null, .null, .null], [.int (.ofNat iterations.toNat)], .empty, #[]⟩ :=
    does_constant supplied.few supplied.iterations
  have fails : Fails p .outermost [.make .newArray ElementType.int.tag]
      ⟨[.null, .null, .null, .null], [.int (.ofNat iterations.toNat)], .empty, #[]⟩
      (.arrayIndexOutOfBounds (.ofNat iterations.toNat) 0x1000000) :=
    fails_newArray rfl (Instruction.index_make (by decide)) refused
  exact (pushes.fails rfl (fails.followed _)).followed next

variable (found : p.functions[worker]? = some f) (arity : f.arity = 1) (fits : worker < 0x1000000)
include found arity fits

/-- Adding up what the worker answers for the array, once it has been created. -/
theorem array_finishes {each count : Int64} {items : Array Int64} {block : Block} {before : Scene}
    {made : Nat}
    (created : Does p .outermost block before
      ⟨[.array Heap.firstId, .int count, .null, .null], [], .single items 1, #[]⟩)
    (answers : 0 < calls.toNat → ∀ site : Site, site.depth = 1 →
      Answers p f site #[] (.array Heap.firstId) (.single items 2) (.int each) (.single items 1)
        made) :
    ∃ after, after.counts.live = 0 ∧
      Finishes p
        (block ++ clear k 3 ++
          countedLoop k 2 [.make .pushInt k.calls] (addCall 3 [.make .loadLocal 0] worker) ++
          printSlot 3) before after
        #[toString (Int64.ofNat calls.toNat * each).toInt] (calls.toNat * (made + 1)) := by
  let slots (j : Nat) : List Value :=
    [.array Heap.firstId, .int count, .int (.ofNat j), .int (.ofNat j * each)]
  have clears : Does p .outermost (clear k 3)
      ⟨[.array Heap.firstId, .int count, .null, .null], [], .single items 1, #[]⟩
      ⟨(slots 0).set 2 .null, [], .single items 1, #[]⟩ := by
    have nothing : Int64.ofNat 0 * each = 0 := Int64.zero_mul
    have start : (slots 0).set 2 .null = [.array Heap.firstId, .int count, .null, .int 0] := by
      simp only [slots, nothing]
      rfl
    rw [start]
    exact does_clear supplied rfl rfl
  have adds : Does p .outermost
      (countedLoop k 2 [.make .pushInt k.calls] (addCall 3 [.make .loadLocal 0] worker))
      ⟨(slots 0).set 2 .null, [], .single items 1, #[]⟩
      ⟨slots calls.toNat, [], .single items 1, #[]⟩ (calls.toNat * (made + 1)) := by
    refine does_addAnswers supplied found arity fits (by simp) ?_ ?_ ?_ ?_ answers rfl
    · exact fun _ => rfl
    · exact fun _ => rfl
    · exact fun _ => rfl
    · exact fun _ => pushes_slot rfl (Heap.retainValue_single items 1)
  obtain ⟨after, released, nothing⟩ : ∃ after,
      Heap.releaseEach [.array Heap.firstId, .int count, .int (.ofNat calls.toNat),
        .int (.ofNat calls.toNat * each)] (.single items 1) = .ok () after ∧
        after.counts.live = 0 := ⟨_, rfl, rfl⟩
  exact ⟨after, nothing, ((created.append clears).append adds).andFinishes
    (finishes_printSlot rfl released)⟩

end Array

section Outcomes

variable (w : Workload) (calls iterations : UInt32)

/-- The sizes that the limits leave room for. -/
def Fits (w : Workload) (calls iterations : UInt32) : Prop :=
  (w = fib → calls = 0 ∨ iterations.toNat ≤ 1023) ∧
    (w = arraySum → iterations.toNat ≤ 0x1000000)

/-- How many calls a run makes: `main` calls the worker so many times, and `fib` calls itself. -/
def callsMade (w : Workload) (calls iterations : UInt32) : Nat :=
  match w with
  | fib => calls.toNat * (2 * Nat.fib (iterations.toNat + 1) - 1)
  | _ => calls.toNat

/-- How many calls the worker makes of its own when it is called. -/
def ownCalls (w : Workload) (iterations : UInt32) : Nat :=
  match w with
  | fib => fibCalls iterations.toNat
  | _ => 0

/-- Each round calls the worker once, and the worker makes its own calls. -/
theorem callsMade_eq :
    w.callsMade calls iterations = calls.toNat * (w.ownCalls iterations + 1) := by
  cases w with
  | fib =>
    have positive : 0 < Nat.fib (iterations.toNat + 1) := Nat.fib_pos.mpr (Nat.succ_pos _)
    have once : 2 * Nat.fib (iterations.toNat + 1) - 1 = fibCalls iterations.toNat + 1 := by
      unfold fibCalls
      omega
    exact congrArg (calls.toNat * ·) once
  | _ => exact (Nat.mul_one _).symm

variable {w calls iterations}

/-- Within the limits a workload prints its closed form, and gives back its array. -/
theorem main_prints (within : w.Fits calls iterations) :
    ∃ heap, heap.counts.live = 0 ∧
      Prints (w.program calls iterations) (w.main (placesOf calls iterations) 0)
        (toString (w.expectedTotal calls iterations).toInt) heap (w.callsMade calls iterations) := by
  rw [callsMade_eq]
  have supplied := program_supplied w calls iterations
  have found := functions_worker w calls iterations
  have fits : 0 < 0x1000000 := by decide
  have small := toNat_lt_intMax iterations
  cases w with
  | counter =>
    refine ⟨.empty, rfl, _, .of_spells (Code.spells_ofList _), ?_⟩
    refine scalar_finishes supplied found rfl fits ?_
    intro _ site _
    exact counter_answers supplied site .empty #[] small
  | countdown =>
    refine ⟨.empty, rfl, _, .of_spells (Code.spells_ofList _), ?_⟩
    refine scalar_finishes supplied found rfl fits ?_
    intro _ site _
    exact countdown_answers supplied site .empty #[] small
  | fib =>
    refine ⟨.empty, rfl, _, .of_spells (Code.spells_ofList _), ?_⟩
    refine scalar_finishes supplied found rfl fits ?_
    intro called site depth
    apply fib_answers supplied found fits
    have bound : iterations.toNat ≤ 1023 := by
      rcases within.1 rfl with none_called | bound
      · rw [none_called] at called
        exact absurd called (Nat.lt_irrefl 0)
      · exact bound
    omega
  | arraySum =>
    let n := iterations.toNat
    have bound : n ≤ 0x1000000 := within.2 rfl
    have total : sumOfFirst (filled n n) (filled n n).size = .ofNat (n * (n - 1) / 2) := by
      rw [size_filled]
      exact sumOfFirst_filled n (Nat.le_refl n)
    have answers (_ : 0 < calls.toNat) (site : Site) (_ : site.depth = 1) :
        Answers (arraySum.program calls iterations) (arraySum.worker (placesOf calls iterations) 0)
          site #[] (.array Heap.firstId) (.single (filled n n) 2)
          (.int (.ofNat (n * (n - 1) / 2))) (.single (filled n n) 1) := by
      rw [← total]
      apply arraySum_answers supplied site #[] (filled n n) 0
      rw [size_filled]
      exact small
    obtain ⟨heap, nothing, finishes⟩ :=
      array_finishes supplied found rfl fits (does_createArray supplied bound) answers
    exact ⟨heap, nothing, _, .of_spells (Code.spells_ofList _), finishes⟩

/-- An array that would be too long is not created. -/
theorem main_collapses_arraySum (long : 0x1000000 < iterations.toNat) :
    Collapses (arraySum.program calls iterations) (arraySum.main (placesOf calls iterations) 0)
      (.arrayIndexOutOfBounds (.ofNat iterations.toNat) 0x1000000) := by
  have supplied := program_supplied arraySum calls iterations
  refine ⟨_, .of_spells (Code.spells_ofList _), ?_⟩
  exact ((((array_fails supplied long _).followed _).followed _).followed _)

/-- A recursion that would be too deep ends in its first descent. -/
theorem main_collapses_fib (called : 0 < calls.toNat) (deep : 1024 ≤ iterations.toNat) :
    Collapses (fib.program calls iterations) (fib.main (placesOf calls iterations) 0)
      (.callStackOverflow 1024) := by
  have supplied := program_supplied fib calls iterations
  have found := functions_worker fib calls iterations
  refine ⟨_, .of_spells (Code.spells_ofList _), ?_⟩
  refine scalar_fails supplied found rfl (by decide) called ?_
  intro site depth
  apply fib_overflows supplied found (by decide) (toNat_lt_intMax iterations)
  omega

end Outcomes

end Workload

end HotPath
