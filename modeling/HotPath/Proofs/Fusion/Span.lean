import HotPath.Proofs.Fusion.Alignment
import HotPath.Proofs.Machine.Evaluation
import HotPath.Proofs.Machine.References

/-!
# A fusible span and the instruction that replaces it

Loading a slot, pushing the constant one, adding or subtracting and storing the slot
back comes to the same as stepping the slot, except that the four instructions
need room for two operands. `span_runs` has the three ways in which the span can
end: it has stepped the slot, it has found no integer there and left everything as it
was, or there was no room. The lemmas before it take the span one instruction at a time.
-/

namespace HotPath

/-- The core with one more operand. -/
def Core.pushed (c : Core) (value : Value) : Core :=
  c.withEntries (c.stack.entries.push value)

namespace Machine

open HotPath.Action

/-- The four instructions of a fusible span, at an address of some code. -/
structure SpanAt (p : Program) (code : Code) (address : Nat) (direction : Direction)
    (slot : Nat) : Prop where
  load : ∃ i, code.Has address i ∧ i.opcode = .loadLocal ∧ i.index = slot
  one : ∃ i, code.Has (address + 1) i ∧ i.opcode = .pushInt ∧ p.intConstants[i.index]? = some 1
  change : ∃ i operation, code.Has (address + 2) i ∧ i.opcode = .intBinary operation ∧
    operation.isDivision = false ∧ ∀ n, operation.apply n 1 = n + direction.amount
  store : ∃ i, code.Has (address + 3) i ∧ i.opcode = .storeLocal ∧ i.index = slot

/-- Four instructions that fusing replaces are such a span. -/
theorem spanAt_of_direction? {p : Program} {code : Code} {address : Nat} {direction : Direction}
    {load one change store : Instruction}
    (steps : Segment.direction? p.intConstants load one change store = some direction)
    (first : code.Has address load) (second : code.Has (address + 1) one)
    (third : code.Has (address + 2) change) (last : code.Has (address + 3) store) :
    SpanAt p code address direction load.index := by
  obtain ⟨loads, pushes, stores, slot, constant, changes⟩ := Segment.of_direction? steps
  refine ⟨⟨load, first, loads, rfl⟩, ⟨one, second, pushes, constant⟩, ?_,
    ⟨store, last, stores, ?_⟩⟩
  · rcases changes with ⟨adds, rfl⟩ | ⟨subtracts, rfl⟩
    · exact ⟨change, .add, third, adds, rfl, fun _ => rfl⟩
    · refine ⟨change, .sub, third, subtracts, rfl, ?_⟩
      intro n
      exact Int64.sub_eq_add_neg n 1
  · rw [Instruction.index, Instruction.index, slot]

/-- How a span of instructions can end that steps a slot, started on a core. An instruction that
fails has been counted, and the frame still stands at it. -/
inductive SpanRun (p : Program) (c : Core) (s : Surroundings) (direction : Direction)
    (slot : Nat) : Prop where
  /-- The slot has been stepped. -/
  | stepped (n : Int64) (found : c.locals.slots[slot]? = some (.int n))
    (ran : run p Profiler.none 4 () (c.plug s) = .running ()
      (Core.plug { c with locals := c.locals.put slot (.int (n + direction.amount)) }
        (s.passed 4)))
  /-- There was no integer in the slot, and everything is as it was. -/
  | refused (fault : Fault) (count : Nat) (few : count < 3)
    (refusal : c.locals.getInt slot = .error fault)
    (ran : run p Profiler.none (count + 1) () (c.plug s) =
      .faulted fault () (c.plug ((s.passed count).counted 1)))
  /-- The operands left no room for one of the two that the span pushes. -/
  | full (count : Nat) (few : count < 2) (after : Core)
    (ran : run p Profiler.none (count + 1) () (c.plug s) =
      .faulted (.stackOverflow c.stack.limit) () (after.plug ((s.passed count).counted 1)))

variable {p : Program} {c : Core} {s : Surroundings} {direction : Direction} {slot : Nat}

/-- A slot that holds something else has no integer to read. -/
theorem getInt_eq_error {l : Locals} {value : Value} (found : l.slots[slot]? = some value)
    (read : value.asInt? = none) :
    l.getInt slot = .error (.invalidValueType (.declared .int) value.shape) := by
  have got : l.get slot = .ok value := by simp only [Locals.get, found]
  simp only [Locals.getInt, got, bind, Except.bind, read]

section Operands

variable {value : Value} {heap : Heap}

/-- Without the slot there is nothing to copy. -/
theorem span_missing (span : SpanAt p s.frame.function.code s.frame.pc direction slot)
    (missing : c.locals.slots[slot]? = none) : SpanRun p c s direction slot := by
  obtain ⟨load, here, loads, rfl⟩ := span.load
  refine .refused (.invalidLocalIndex load.index c.locals.slots.size) 0 (by omega) ?_ ?_
  · simp only [Locals.getInt, Locals.get, missing]
    rfl
  · rw [run_one]
    exact step_of_error here (perform_loadLocal_missing (s.counted 1) _ _ loads missing)

/-- The copy of the slot is given back when it finds no room. -/
theorem span_full_at_load (span : SpanAt p s.frame.function.code s.frame.pc direction slot)
    (found : c.locals.slots[slot]? = some value)
    (retained : Heap.retainValue value c.heap = .ok () heap)
    (released : Heap.releaseValue value heap = .ok () c.heap)
    (full : c.stack.limit ≤ c.stack.entries.size) : SpanRun p c s direction slot := by
  obtain ⟨load, here, loads, rfl⟩ := span.load
  refine .full 0 (by omega) c ?_
  rw [run_one]
  exact step_of_error here
    (perform_loadLocal_full (s.counted 1) _ _ loads found retained released full)

/-- The first instruction copies the slot. -/
theorem span_loads (span : SpanAt p s.frame.function.code s.frame.pc direction slot)
    (found : c.locals.slots[slot]? = some value)
    (retained : Heap.retainValue value c.heap = .ok () heap)
    (room : c.stack.entries.size < c.stack.limit) :
    run p Profiler.none 1 () (c.plug s) =
      .running () ((Core.pushed { c with heap } value).plug (s.passed 1)) := by
  obtain ⟨load, here, loads, rfl⟩ := span.load
  rw [run_one]
  exact step_of_next here (perform_loadLocal (s.counted 1) _ _ loads found retained room)

/-- The one finds no room behind the copy. -/
theorem span_full_at_one (span : SpanAt p s.frame.function.code s.frame.pc direction slot)
    {loaded : Core}
    (loads : run p Profiler.none 1 () (c.plug s) = .running () (loaded.plug (s.passed 1)))
    (same : loaded.stack.limit = c.stack.limit)
    (full : loaded.stack.limit ≤ loaded.stack.entries.size) : SpanRun p c s direction slot := by
  obtain ⟨one, here, pushes, constant⟩ := span.one
  refine .full 1 (by omega) loaded ?_
  rw [run_add_of_running loads 1, run_one, ← same]
  exact step_of_error (s := s.passed 1) here
    (perform_pushInt_full ((s.passed 1).counted 1) _ _ pushes constant full)

/-- The second instruction pushes the one. -/
theorem span_pushes (span : SpanAt p s.frame.function.code s.frame.pc direction slot)
    {loaded : Core}
    (loads : run p Profiler.none 1 () (c.plug s) = .running () (loaded.plug (s.passed 1)))
    (room : loaded.stack.entries.size < loaded.stack.limit) :
    run p Profiler.none 2 () (c.plug s) =
      .running () ((loaded.pushed (.int 1)).plug (s.passed 2)) := by
  obtain ⟨one, here, pushes, constant⟩ := span.one
  rw [run_add_of_running loads 1, run_one, ← s.passed_passed 1 1]
  exact step_of_next (s := s.passed 1) here
    (perform_pushInt ((s.passed 1).counted 1) _ _ pushes constant room)

end Operands

section Change

variable {n : Int64}

/-- The third instruction refuses a copy that is no integer. It gives the copy back, and nothing
else has changed. -/
theorem span_refuses (span : SpanAt p s.frame.function.code s.frame.pc direction slot)
    {value : Value} {heap : Heap}
    (ready : run p Profiler.none 2 () (c.plug s) =
      .running () (((Core.pushed { c with heap } value).pushed (.int 1)).plug (s.passed 2)))
    (visible : c.stack.base ≤ c.stack.entries.size)
    (found : c.locals.slots[slot]? = some value) (read : value.asInt? = none)
    (released : Heap.releaseValue value heap = .ok () c.heap) : SpanRun p c s direction slot := by
  obtain ⟨change, operation, here, changes, total, _⟩ := span.change
  refine .refused _ 2 (by omega) (getInt_eq_error found read) ?_
  rw [run_add_of_running ready 1, run_one]
  exact step_of_error (s := s.passed 2) here
    (perform_intBinary_mismatch ((s.passed 2).counted 1) _ _ changes total rfl visible read
      released)

/-- The third instruction steps the copy, and the fourth moves it into the slot. -/
theorem span_steps (span : SpanAt p s.frame.function.code s.frame.pc direction slot)
    (ready : run p Profiler.none 2 () (c.plug s) =
      .running () (((c.pushed (.int n)).pushed (.int 1)).plug (s.passed 2)))
    (visible : c.stack.base ≤ c.stack.entries.size)
    (room : ((c.pushed (.int n)).pushed (.int 1)).stack.entries.size ≤ c.stack.limit)
    (found : c.locals.slots[slot]? = some (.int n)) : SpanRun p c s direction slot := by
  obtain ⟨change, operation, changeHere, changes, total, amount⟩ := span.change
  obtain ⟨store, storeHere, stores, rfl⟩ := span.store
  have changed : step p Profiler.none ()
      (((c.pushed (.int n)).pushed (.int 1)).plug (s.passed 2)) =
        .running () ((c.pushed (.int (operation.apply n 1))).plug (s.passed 3)) := by
    rw [← s.passed_passed 2 1]
    exact step_of_next (s := s.passed 2) changeHere
      (perform_intBinary ((s.passed 2).counted 1) _ _ changes total rfl visible room)
  refine .stepped n found ?_
  rw [run_add_of_running ready 2, run_succ_of_running 1 changed, run_one,
    ← s.passed_passed 3 1, ← amount]
  exact step_of_next (s := s.passed 3) storeHere
    (perform_storeLocal (c := c.pushed (.int (operation.apply n 1))) ((s.passed 3).counted 1)
      _ _ stores rfl visible found rfl)

end Change

/-- A span that is started on a machine whose references are all held ends in one of three
ways. -/
theorem span_runs (span : SpanAt p s.frame.function.code s.frame.pc direction slot)
    (balanced : Holder.Balanced (c.plug s) []) (visible : c.stack.base ≤ c.stack.entries.size) :
    SpanRun p c s direction slot := by
  cases found : c.locals.slots[slot]? with
  | none => exact span_missing span found
  | some value =>
    have held : value ∈ [] ++ (c.plug s).held := by
      refine List.mem_append_right [] (List.mem_append_left _ (List.mem_append_left _ ?_))
      exact Array.mem_toList_iff.mpr (Array.mem_of_getElem? found)
    obtain ⟨heap, retained, released⟩ := (balanced_iff.mp balanced).2.retain_release held
    by_cases full : c.stack.limit ≤ c.stack.entries.size
    · exact span_full_at_load span found retained released full
    have loads := span_loads span found retained (Nat.lt_of_not_le full)
    by_cases fullNext : c.stack.limit ≤ (c.stack.entries.push value).size
    · exact span_full_at_one span loads rfl fullNext
    have ready := span_pushes span loads (Nat.lt_of_not_le fullNext)
    cases read : value.asInt? with
    | none => exact span_refuses span ready visible found read released
    | some n =>
      obtain rfl : value = .int n := by
        cases value <;> cases read
        rfl
      -- An integer holds no array, so retaining it has left the heap as it was.
      cases retained
      refine span_steps span ready visible ?_ found
      exact Array.size_push _ ▸ Nat.lt_of_not_le fullNext

end Machine

end HotPath
