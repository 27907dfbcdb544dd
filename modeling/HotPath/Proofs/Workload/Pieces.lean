import HotPath.Proofs.Machine.Blocks
import HotPath.Proofs.Workload.Constants

/-!
# The pieces that workloads are made of

A rule for each of the blocks that workloads are put together from, in terms of the slots they work
on. Between the pieces no operands are left.

The rule for `countedLoop` is about any body that takes a round on to the next one, as
long as it leaves the counter alone. Calls are made in the bodies of such loops only.
-/

namespace HotPath

namespace Machine

variable {p : Program} {site : Site} {slots : List Value} {operands : List Value} {heap : Heap}
  {output : Array String}

section Instructions

variable {value previous : Value} {after : Heap} {slot place : Nat} {a b n : Int64}

/-- An integer of a small table is pushed. -/
theorem does_constant (small : p.intConstants.size ≤ 5) (found : p.intConstants[place]? = some n)
    (few : operands.length < 900 := by simp) :
    Does p site [.make .pushInt place] ⟨slots, operands, heap, output⟩
      ⟨slots, .int n :: operands, heap, output⟩ := by
  have inside := (Array.getElem?_eq_some_iff.mp found).1
  have index : (Instruction.make .pushInt place).index = place :=
    Instruction.index_make (by omega)
  refine does_pushInt rfl ?_ (Nat.lt_trans few (by decide))
  rw [index, found]

/-- The value of a slot is pushed, with a reference more if it is an array. -/
theorem does_load (found : slots[slot]? = some value)
    (retained : Heap.retainValue value heap = .ok () after) (inside : slot < 16 := by decide)
    (few : operands.length < 900 := by simp) :
    Does p site [.make .loadLocal slot] ⟨slots, operands, heap, output⟩
      ⟨slots, value :: operands, after, output⟩ :=
  does_loadLocal rfl (Instruction.index_make (by omega)) found retained
    (Nat.lt_trans few (by decide))

/-- The integer in a slot is pushed. -/
theorem does_loadInt (found : slots[slot]? = some (.int n)) (inside : slot < 16 := by decide)
    (few : operands.length < 900 := by simp) :
    Does p site [.make .loadLocal slot] ⟨slots, operands, heap, output⟩
      ⟨slots, .int n :: operands, heap, output⟩ :=
  does_load found rfl inside few

/-- The top operand is stored into a slot that held no array. -/
theorem does_store (found : slots[slot]? = some previous)
    (plain : Heap.releaseValue previous heap = .ok () heap) (inside : slot < 16 := by decide) :
    Does p site [.make .storeLocal slot] ⟨slots, value :: operands, heap, output⟩
      ⟨slots.set slot value, operands, heap, output⟩ :=
  does_storeLocal rfl (Instruction.index_make (by omega)) rfl found plain

/-- The top operands are replaced by the result of an operation on them. -/
theorem does_arithmetic {operation : IntOperation} (total : operation.isDivision = false)
    (computed : operation.apply a b = n) (few : operands.length < 900 := by simp) :
    Does p site [.make (.intBinary operation)] ⟨slots, .int b :: .int a :: operands, heap, output⟩
      ⟨slots, .int n :: operands, heap, output⟩ := by
  rw [← computed]
  exact does_intBinary rfl total rfl few

/-- The top operands are replaced by the answer to a comparison of them. -/
theorem does_compare {comparison : Comparison} {holds : Bool}
    (decided : comparison.ints a b = holds) (few : operands.length < 900 := by simp) :
    Does p site [.make (.compareInt comparison)]
      ⟨slots, .int b :: .int a :: operands, heap, output⟩
      ⟨slots, .bool holds :: operands, heap, output⟩ := by
  rw [← decided]
  exact does_compareInt rfl rfl few

end Instructions

/-- A block pushes a value, and may count a reference to it, whatever lies below. -/
def Pushes (p : Program) (site : Site) (block : Block) (slots : List Value) (output : Array String)
    (before : Heap) (value : Value) (after : Heap) : Prop :=
  ∀ operands : List Value, operands.length ≤ 4 →
    Does p site block ⟨slots, operands, before, output⟩ ⟨slots, value :: operands, after, output⟩

/-- A constant is an argument. -/
theorem pushes_constant {place : Nat} {n : Int64} (small : p.intConstants.size ≤ 5)
    (found : p.intConstants[place]? = some n) :
    Pushes p site [.make .pushInt place] slots output heap (.int n) heap :=
  fun _ few => does_constant small found (Nat.lt_of_le_of_lt few (by decide))

/-- The value of a slot is an argument. -/
theorem pushes_slot {value : Value} {after : Heap} {slot : Nat}
    (found : slots[slot]? = some value) (retained : Heap.retainValue value heap = .ok () after)
    (inside : slot < 16 := by decide) :
    Pushes p site [.make .loadLocal slot] slots output heap value after :=
  fun _ few => does_load found retained inside (Nat.lt_of_le_of_lt few (by decide))

end Machine

namespace Workload

open Machine

variable {p : Program} {k : ConstantPlaces} {calls iterations : UInt32} {site : Site}
  {slots : List Value} {heap : Heap} {output : Array String} {slot : Nat}

section Supplied

variable (supplied : Supplied p.intConstants k calls iterations)
include supplied

/-- The slot is zero. -/
theorem does_clear {previous : Value} (found : slots[slot]? = some previous)
    (plain : Heap.releaseValue previous heap = .ok () heap) (inside : slot < 16 := by decide) :
    Does p site (clear k slot) ⟨slots, [], heap, output⟩
      ⟨slots.set slot (.int 0), [], heap, output⟩ :=
  .cons (does_constant supplied.few supplied.zero) (does_store found plain inside)

/-- The slot holds one more. -/
theorem does_increment {n : Int64} (found : slots[slot]? = some (.int n))
    (inside : slot < 16 := by decide) :
    Does p site (increment k slot) ⟨slots, [], heap, output⟩
      ⟨slots.set slot (.int (n + 1)), [], heap, output⟩ := by
  refine .cons (does_loadInt found inside) ?_
  refine .cons (does_constant supplied.few supplied.one) ?_
  exact .cons (does_arithmetic rfl rfl) (does_store found rfl inside)

/-- The slot holds one less. -/
theorem does_decrement {n : Int64} (found : slots[slot]? = some (.int n))
    (inside : slot < 16 := by decide) :
    Does p site (decrement k slot) ⟨slots, [], heap, output⟩
      ⟨slots.set slot (.int (n - 1)), [], heap, output⟩ := by
  refine .cons (does_loadInt found inside) ?_
  refine .cons (does_constant supplied.few supplied.one) ?_
  exact .cons (does_arithmetic rfl rfl) (does_store found rfl inside)

section Counting

variable {bound body : Block} {rounds : Nat} {state : Nat → List Value} {heaps : Nat → Heap}
  {previous : Value}

omit supplied in
/-- The condition of a counted loop. -/
theorem does_counted {current : Nat} (small : rounds < 0x8000000000000000)
    (before : current ≤ rounds) (counts : slots[slot]? = some (.int (.ofNat current)))
    (bounds : Pushes p site bound slots output heap (.int (.ofNat rounds)) heap)
    (inside : slot < 16 := by decide) :
    Does p site (.make .loadLocal slot :: bound ++ [.make (.compareInt .lt)])
      ⟨slots, [], heap, output⟩ ⟨slots, [.bool (current < rounds)], heap, output⟩ := by
  have decided : Comparison.lt.ints (.ofNat current) (.ofNat rounds) = decide (current < rounds) :=
    decide_eq_decide.mpr (Int64.ofNat_lt_iff_lt (Nat.lt_of_le_of_lt before small) small)
  have pushed : Does p site (.make .loadLocal slot :: bound) ⟨slots, [], heap, output⟩
      ⟨slots, [.int (.ofNat rounds), .int (.ofNat current)], heap, output⟩ :=
    .cons (does_loadInt counts inside) (bounds [.int (.ofNat current)] (by simp))
  exact pushed.append (does_compare decided)

/-- A counted loop goes through its rounds, from any value that its counter has before. Each round
makes the same number of calls. -/
theorem does_countedLoop_of_calls {each : Nat} (small : rounds < 0x8000000000000000)
    (short : bound.length + body.length < 0x1000)
    (counts : ∀ j ≤ rounds, (state j)[slot]? = some (.int (.ofNat j)))
    (bounds : ∀ j ≤ rounds,
      Pushes p site bound (state j) output (heaps j) (.int (.ofNat rounds)) (heaps j))
    (works : ∀ j < rounds, Does p site body ⟨state j, [], heaps j, output⟩
      ⟨(state (j + 1)).set slot (.int (.ofNat j)), [], heaps (j + 1), output⟩ each)
    (plain : Heap.releaseValue previous (heaps 0) = .ok () (heaps 0))
    (inside : slot < 16 := by decide) :
    Does p site (countedLoop k slot bound body) ⟨(state 0).set slot previous, [], heaps 0, output⟩
      ⟨state rounds, [], heaps rounds, output⟩ (rounds * each) := by
  -- What a slot of the counter holds does not matter once it is set again.
  have filled {j : Nat} (before : j ≤ rounds) (value : Value) :
      ((state j).set slot value)[slot]? = some value := by
    have present := (List.getElem?_eq_some_iff.mp (counts j before)).1
    rw [List.getElem?_set_self present]
  have counted {j : Nat} (before : j ≤ rounds) (value : Value) :
      ((state j).set slot value).set slot (.int (.ofNat j)) = state j := by
    obtain ⟨present, holds⟩ := List.getElem?_eq_some_iff.mp (counts j before)
    rw [List.set_set, ← holds, List.set_getElem_self]
  have cleared : Does p site (clear k slot) ⟨(state 0).set slot previous, [], heaps 0, output⟩
      ⟨state 0, [], heaps 0, output⟩ := by
    have start : ((state 0).set slot previous).set slot (.int 0) = state 0 :=
      counted (Nat.zero_le _) previous
    have clears : Does p site (clear k slot) ⟨(state 0).set slot previous, [], heaps 0, output⟩
        ⟨((state 0).set slot previous).set slot (.int 0), [], heaps 0, output⟩ :=
      does_clear supplied (filled (Nat.zero_le _) previous) plain inside
    rwa [start] at clears
  refine cleared.append ?_
  let scene (j : Nat) : Scene := ⟨state j, [], heaps j, output⟩
  suffices loops : Does p site (Block.loop (.make .loadLocal slot :: bound ++
      [.make (.compareInt .lt)]) (body ++ increment k slot)) (scene 0) (scene rounds)
      (rounds * each) from loops
  refine does_loop_of_calls ?_ ?_ ?_ ?_
  · simp only [increment, List.length_append, List.length_cons, List.length_nil]
    omega
  · intro j before
    have tests := does_counted small (Nat.le_of_lt before) (counts j (Nat.le_of_lt before))
      (bounds j (Nat.le_of_lt before)) inside
    rwa [decide_eq_true before] at tests
  · have tests := does_counted small (Nat.le_refl rounds) (counts rounds (Nat.le_refl _))
      (bounds rounds (Nat.le_refl _)) inside
    rwa [decide_eq_false (Nat.lt_irrefl rounds)] at tests
  · intro j before
    let between := (state (j + 1)).set slot (.int (.ofNat j))
    have next : between.set slot (.int (.ofNat j + 1)) = state (j + 1) := by
      have sum : Int64.ofNat j + 1 = Int64.ofNat (j + 1) := (Int64.ofNat_add j 1).symm
      rw [sum]
      exact counted before _
    have adds : Does p site (increment k slot) ⟨between, [], heaps (j + 1), output⟩
        ⟨between.set slot (.int (.ofNat j + 1)), [], heaps (j + 1), output⟩ :=
      does_increment supplied (filled before (.int (.ofNat j))) inside
    rw [next] at adds
    exact (works j before).andThen adds

/-- A counted loop takes the rounds one by one, as its body does, and the counter ends at their
number. -/
theorem does_countedLoop (small : rounds < 0x8000000000000000)
    (short : bound.length + body.length < 0x1000)
    (counts : ∀ j ≤ rounds, (state j)[slot]? = some (.int (.ofNat j)))
    (bounds : ∀ j ≤ rounds,
      Pushes p site bound (state j) output (heaps j) (.int (.ofNat rounds)) (heaps j))
    (works : ∀ j < rounds, Does p site body ⟨state j, [], heaps j, output⟩
      ⟨(state (j + 1)).set slot (.int (.ofNat j)), [], heaps (j + 1), output⟩)
    (plain : Heap.releaseValue previous (heaps 0) = .ok () (heaps 0))
    (inside : slot < 16 := by decide) :
    Does p site (countedLoop k slot bound body) ⟨(state 0).set slot previous, [], heaps 0, output⟩
      ⟨state rounds, [], heaps rounds, output⟩ :=
  does_countedLoop_of_calls supplied small short counts bounds works plain inside

end Counting

end Supplied

section Ending

variable {value : Value} {between after : Heap} {n : Int64}

/-- The value of a slot is returned, with a reference of its own, and the slots are given back. -/
theorem returns_slot (found : slots[slot]? = some value)
    (retained : Heap.retainValue value heap = .ok () between)
    (released : Heap.releaseEach slots between = .ok () after) (inside : slot < 16 := by decide) :
    Returns p site (returnSlot slot) ⟨slots, [], heap, output⟩ value after :=
  (does_load found retained inside).returns rfl (returns_ret rfl released)

/-- The integer in a slot is printed, and the call ends. -/
theorem finishes_printSlot (found : slots[slot]? = some (.int n))
    (released : Heap.releaseEach slots heap = .ok () after) (inside : slot < 16 := by decide) :
    Finishes p (printSlot slot) ⟨slots, [], heap, output⟩ after
      (output.push (toString n.toInt)) := by
  have loads : Does p .outermost [.make .loadLocal slot] ⟨slots, [], heap, output⟩
      ⟨slots, [.int n], heap, output⟩ := does_loadInt found inside
  exact loads.finishes ((does_print rfl).finishes (finishes_retVoid rfl released))

end Ending

section Adding

variable {argument : Block} {worker : Nat} {value : Value} {between after : Heap}
  {total each : Int64} {made : Nat}

/-- The sum so far and the argument of the next call are pushed. -/
theorem does_argument (found : slots[slot]? = some (.int total))
    (argues : Pushes p site argument slots output heap value between)
    (inside : slot < 16 := by decide) :
    Does p site (.make .loadLocal slot :: argument) ⟨slots, [], heap, output⟩
      ⟨slots, [value, .int total], between, output⟩ :=
  .cons (does_loadInt found inside) (argues [.int total] (by simp))

/-- What a call answers is added to the slot. -/
theorem does_addCall (found : slots[slot]? = some (.int total))
    (argues : Pushes p site argument slots output heap value between)
    (answers : Does p site [.make .call worker] ⟨slots, [value, .int total], between, output⟩
      ⟨slots, [.int each, .int total], after, output⟩ made)
    (inside : slot < 16 := by decide) :
    Does p site (addCall slot argument worker) ⟨slots, [], heap, output⟩
      ⟨slots.set slot (.int (total + each)), [], after, output⟩ made := by
  have adds : Does p site [.make (.intBinary .add), .make .storeLocal slot]
      ⟨slots, [.int each, .int total], after, output⟩
      ⟨slots.set slot (.int (total + each)), [], after, output⟩ :=
    .cons (does_arithmetic rfl rfl) (does_store found rfl inside)
  exact (does_argument found argues inside).append (answers.andThen adds)

/-- A call that faults ends the block. -/
theorem fails_addCall {fault : Fault} (found : slots[slot]? = some (.int total))
    (argues : Pushes p site argument slots output heap value between)
    (fails : Fails p site [.make .call worker] ⟨slots, [value, .int total], between, output⟩
      fault)
    (inside : slot < 16 := by decide) :
    Fails p site (addCall slot argument worker) ⟨slots, [], heap, output⟩ fault :=
  (does_argument found argues inside).fails rfl (fails.followed _)

end Adding

end Workload

end HotPath
