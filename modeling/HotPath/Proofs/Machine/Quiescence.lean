import HotPath.Proofs.Machine.Framing

/-!
# A call that has ended leaves nothing behind

However a call ends, the machine is at rest afterwards: no call is in progress, no operand is
left, and no array is alive. A return has given everything back but the answer, which is
copied out; a fault unwinds the machine. `Served` collects the machines that calls leave behind
when nothing but fused versions is offered, and `quiescent_after_call` says what the next call
makes of them where ids have 32 bits for the number of a slot.
-/

namespace HotPath

namespace Machine

open HotPath.Action

/-- A machine at rest. -/
structure Quiescent (m : Machine) : Prop where
  frames : m.frames = []
  entries : m.stack.entries = #[]
  base : m.stack.base = 0
  deserted : ∀ id, m.heap.find? id = none
  live : m.heap.counts.live = 0
  freed : m.heap.counts.allocations = m.heap.counts.frees

/-- Where nothing is held no array is alive. -/
theorem quiescent_of_balanced {m : Machine} (frames : m.frames = [])
    (entries : m.stack.entries = #[]) (base : m.stack.base = 0) (balanced : m.heap.Balanced [])
    (tallied : m.heap.Tallied) : Quiescent m := by
  obtain ⟨live, freed⟩ := tallied.deserted balanced
  refine ⟨frames, entries, base, ?_, live, freed⟩
  intro id
  cases found : m.heap.find? id with
  | none => rfl
  | some cell =>
    obtain ⟨counted, positive⟩ := balanced.counted found
    rw [counted, List.count_nil] at positive
    exact absurd positive (Nat.lt_irrefl 0)

/-- Whatever a fault leaves behind is given back. -/
theorem quiescent_unwind {m : Machine} (balanced : m.heap.Balanced m.held)
    (tallied : m.heap.Tallied) : Quiescent m.unwind :=
  quiescent_of_balanced rfl rfl rfl (unwind_keeps balanced)
    (tallied.evolves (unwind_evolves m))

section Calls

variable {σ : Type} {p : Program} {profiler : Profiler σ} {s : σ} {m : Machine}

/-- The outermost frame takes its operands along. -/
theorem finished_at_rest {after : Machine} (framed : Framed 0 after) (idle : after.frames = []) :
    after.stack.entries = #[] ∧ after.stack.base = 0 ∧ after.held = [] := by
  obtain ⟨base, size⟩ := framed.grounded idle
  have entries : after.stack.entries = #[] := Array.eq_empty_of_size_eq_zero size
  refine ⟨entries, base, ?_⟩
  rw [held, idle, OperandStack.above_eq, entries]
  rfl

/-- A call that ends leaves the machine at rest. -/
theorem call_quiescent (balanced : m.heap.Balanced m.held) (tallied : m.heap.Tallied)
    (offers : profiler.OffersFusions p s) {name : String} {arguments : List HostValue}
    {index : Nat} (admitted : entryOf p name arguments = .ok index) (fuel : Nat)
    {outcome : Except Fault (Option HostValue)}
    (ended : (call p profiler fuel name arguments s m).outcome? = some outcome) :
    Quiescent (call p profiler fuel name arguments s m).machine ∧
      (call p profiler fuel name arguments s m).machine.heap.Tallied := by
  obtain ⟨f, found, count⟩ := arity_of_entryOf admitted
  have version := (isVersion_of_offers offers found .start).shape.1
  have keeps := underway_keeps p profiler fuel index arguments s balanced
  obtain ⟨framed, evolves⟩ := underway_framed p profiler fuel arguments s found balanced
  rw [version, count, Nat.sub_self] at framed
  rw [call_eq_underway p profiler admitted] at ended ⊢
  generalize underway p profiler fuel index arguments s m = status at keeps framed evolves ended ⊢
  cases status with
  | running u after => cases ended
  | faulted fault u after =>
    have tallied := tallied.evolves evolves
    exact ⟨quiescent_unwind keeps.1 tallied, tallied.evolves (unwind_evolves after)⟩
  | finished answer u after =>
    have tallied := tallied.evolves evolves
    obtain ⟨framed, idle⟩ := framed
    obtain ⟨entries, base, unheld⟩ := finished_at_rest framed idle
    have balance : after.heap.Balanced (answer.toList ++ []) := unheld ▸ keeps
    cases answer with
    | none => exact ⟨quiescent_of_balanced idle entries base balance tallied, tallied⟩
    | some value =>
      obtain ⟨answer, heap, exported, balance⟩ := Heap.Balanced.exportHost balance
      have copied := Heap.exportHost_takes value after.heap
      unfold Action.after at copied
      rw [exported] at copied
      have handedOver : onHeap (Heap.exportHost value) after =
          .ok answer { after with heap := heap } := by
        simp only [onHeap, exported]
      dsimp only
      rw [handedOver]
      have tallied := tallied.evolves copied
      exact ⟨quiescent_of_balanced idle entries base balance tallied, tallied⟩

end Calls

/-- The machines that a host can have when nothing but fused versions is ever offered: a new one,
and what calls that have ended and taking the output have made of it. -/
inductive Served [Numbering] : Machine → Prop where
  | created (limits : Limits) : Served (create limits)
  | called {σ : Type} {m : Machine} (earlier : Served m) {p : Program} {profiler : Profiler σ}
      {s : σ} (offers : profiler.OffersFusions p s) (fuel : Nat) (name : String)
      (arguments : List HostValue) {outcome : Except Fault (Option HostValue)}
      (ended : (call p profiler fuel name arguments s m).outcome? = some outcome) :
      Served (call p profiler fuel name arguments s m).machine
  | outputTaken {m : Machine} (earlier : Served m) : Served m.takeOutput.2

namespace Served

variable {m : Machine}

/-- A machine that has only been served is hosted. -/
theorem hosted (served : Served m) : Hosted m := by
  induction served with
  | created limits => exact .created limits
  | called _ _ fuel name arguments ended ih => exact .called ih _ _ fuel name arguments _ ended
  | outputTaken _ ih => exact .outputTaken ih

/-- Between two calls a machine is at rest. -/
theorem quiescent (served : Served m) : Quiescent m ∧ m.heap.Tallied := by
  induction served with
  | created limits =>
    exact ⟨quiescent_of_balanced rfl rfl rfl Heap.balanced_empty Heap.tallied_empty,
      Heap.tallied_empty⟩
  | @called σ m earlier p profiler s offers fuel name arguments outcome ended ih =>
    cases admitted : entryOf p name arguments with
    | error fault =>
      rw [call_of_refused p profiler admitted]
      exact ih
    | ok index =>
      exact call_quiescent earlier.hosted.balanced ih.2 offers admitted fuel ended
  | outputTaken _ ih => exact ⟨⟨ih.1.frames, ih.1.entries, ih.1.base, ih.1.deserted, ih.1.live,
      ih.1.freed⟩, ih.2⟩

end Served

/-- The machines that a host can have when nothing but fused versions is ever offered, where ids
have 32 bits for the number of a slot. -/
abbrev Narrow.Served := @Machine.Served .low32

/-- With at most `2 ^ 32` slots such a machine is one that the host can have where ids keep the
whole number of a slot. -/
theorem Narrow.Served.whole {m : Machine} (served : Narrow.Served m)
    (room : m.heap.slots.size ≤ UInt32.size) : Machine.Served m := by
  induction served with
  | created limits => exact .created limits
  | @called σ m earlier p profiler s offers fuel name arguments outcome ended ih =>
    have narrows := call_narrows p profiler fuel name arguments s m
    have same := narrows.agrees room
    unfold Narrow.call at same
    rw [same] at ended ⊢
    exact .called (ih (Nat.le_trans narrows.grows room)) offers fuel name arguments ended
  | outputTaken _ ih => exact .outputTaken (ih room)

/-- After any history of calls, a call that ends leaves the machine at rest, whether it answers or
faults, and a call that is rejected leaves it exactly as it is. Ids have 32 bits for the number of a
slot, so that the heap may have `2 ^ 32` slots when the call has ended. -/
theorem quiescent_after_call {m : Machine} (served : Narrow.Served m) {σ : Type} {p : Program}
    {profiler : Profiler σ} {s : σ} (offers : profiler.OffersFusions p s) (name : String)
    (arguments : List HostValue) (fuel : Nat) :
    (∀ outcome, (Narrow.call p profiler fuel name arguments s m).outcome? = some outcome →
      (Narrow.call p profiler fuel name arguments s m).machine.heap.slots.size ≤ UInt32.size →
        Quiescent (Narrow.call p profiler fuel name arguments s m).machine) ∧
    (p.indexOf? name = none →
      Narrow.call p profiler fuel name arguments s m =
        .faulted (.invalidFunctionIndex p.functions.size) s m) ∧
    ∀ index f fault, p.indexOf? name = some index → p.functions[index]? = some f →
      f.checkArguments arguments = .error fault →
        Narrow.call p profiler fuel name arguments s m = .faulted fault s m := by
  refine ⟨?_, ?_, ?_⟩
  · intro outcome ended room
    have narrows := call_narrows p profiler fuel name arguments s m
    have whole := served.whole (Nat.le_trans narrows.grows room)
    rw [narrows.agrees room] at ended ⊢
    exact (whole.called offers fuel name arguments ended).quiescent.1
  · intro unknown
    have refused : entryOf p name arguments = .error (.invalidFunctionIndex p.functions.size) := by
      simp only [entryOf, unknown]
    exact @call_of_refused σ p profiler .low32 _ _ _ refused fuel s m
  · intro index f fault known found rejected
    have refused : entryOf p name arguments = .error fault := by
      simp only [entryOf, known, found, rejected]
      rfl
    exact @call_of_refused σ p profiler .low32 _ _ _ refused fuel s m

/-- The program that hands an array on, on a machine that it has been called on before: a call that
answers with an array, one that faults in the function that it calls, and two that are rejected. -/
theorem quiescent_after_call_relayProgram :
    ∃ m, Narrow.Served m ∧ Profiler.none.OffersFusions relayProgram () ∧
      (Narrow.call relayProgram Profiler.none 9 "main" [.array (.ints #[3, 4])] () m).outcome? =
        some (.ok (some (.array (.ints #[3, 4])))) ∧
      Quiescent
        (Narrow.call relayProgram Profiler.none 9 "main" [.array (.ints #[3, 4])] () m).machine ∧
      (Narrow.call relayProgram Profiler.none 9 "main" [.array (.ints #[])] () m).outcome? =
        some (.error (.arrayIndexOutOfBounds 0 0)) ∧
      Quiescent (Narrow.call relayProgram Profiler.none 9 "main" [.array (.ints #[])] () m).machine ∧
      Narrow.call relayProgram Profiler.none 9 "other" [] () m =
        .faulted (.invalidFunctionIndex 2) () m ∧
      Narrow.call relayProgram Profiler.none 9 "main" [] () m = .faulted .stackUnderflow () m := by
  let calls (arguments : List HostValue) (m : Machine) : Status Unit (Option HostValue) :=
    Narrow.call relayProgram Profiler.none 9 "main" arguments () m
  let m := (calls [.array (.ints #[5])] (create {})).machine
  have offers := Profiler.none_offersFusions relayProgram ()
  have earlier : (calls [.array (.ints #[5])] (create {})).outcome? =
      some (.ok (some (.array (.ints #[5])))) := by decide +kernel
  have served : Narrow.Served m :=
    @Served.called .low32 _ _ (@Served.created .low32 {}) _ _ _ offers 9 "main" _ _ earlier
  have answered : (calls [.array (.ints #[3, 4])] m).outcome? =
      some (.ok (some (.array (.ints #[3, 4])))) := by decide +kernel
  have faulted : (calls [.array (.ints #[])] m).outcome? =
      some (.error (.arrayIndexOutOfBounds 0 0)) := by decide +kernel
  have answering := quiescent_after_call served offers "main" [.array (.ints #[3, 4])] 9
  have faulting := quiescent_after_call served offers "main" [.array (.ints #[])] 9
  have unnamed := quiescent_after_call served offers "other" [] 9
  have unarmed := quiescent_after_call served offers "main" [] 9
  have unknown : relayProgram.indexOf? "other" = none := by decide +kernel
  have known : relayProgram.indexOf? "main" = some 0 := by decide +kernel
  exact ⟨m, served, offers, answered, answering.1 _ answered (by decide +kernel), faulted,
    faulting.1 _ faulted (by decide +kernel), unnamed.2.1 unknown,
    unarmed.2.2 0 _ .stackUnderflow known rfl rfl⟩

end Machine

end HotPath
