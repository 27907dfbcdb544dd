import HotPath.Proofs.Machine.Tiering

/-!
# The host cannot see tiering

What a host gets out of a call is its outcome and the machine that it leaves
behind. `underway_tracks` carries the simulation of runs over to calls, from the
first state on, and `tiering_invisible` compares the outcomes: they are the same
unless the plain call finds no room for an operand of a span that fusing replaces.
-/

namespace HotPath

namespace Machine

open HotPath.Action

variable {p : Program} {σ : Type} {profiler : Profiler σ} {u : σ}

/-- A machine is like itself. -/
theorem Alike.refl (m : Machine) : Alike m m where
  limits := rfl
  heap := rfl
  stack := rfl
  slots := rfl
  output := rfl
  counts := ⟨rfl, rfl, Nat.le_refl _⟩

/-- Machines that are alike are so on any heap. -/
theorem Alike.withHeap {plain tiered : Machine} (alike : Alike plain tiered) (heap : Heap) :
    Alike { plain with heap } { tiered with heap } where
  limits := alike.limits
  heap := rfl
  stack := alike.stack
  slots := alike.slots
  output := alike.output
  counts := alike.counts

section Starting

variable {m : Machine} {index : Nat} {values : List Value}

/-- The machine with the arguments of a call among its operands. -/
def loaded (m : Machine) (values : List Value) : Machine :=
  { m with stack.entries := m.stack.entries ++ values.toArray }

/-- With room for the arguments, a function is entered behind them. -/
theorem start_of_room (room : m.stack.entries.size + values.length ≤ m.stack.limit) {f : Function}
    (found : p.functions[index]? = some f) :
    start p profiler u index values m =
      enter index (profiler.version index f u) none (m.loaded values) := by
  have limit : Action.ofExcept (fun m : Machine => .ok m.stack.limit) m =
      .ok m.stack.limit m := rfl
  have enough : ¬ m.stack.limit < values.length := by omega
  unfold start
  rw [bind_of_ok limit, if_neg enough]
  simp only [bind_of_ok (forM_push room), found, loaded]

/-- The host cannot call a function that the program does not have. -/
theorem start_of_missing (room : m.stack.entries.size + values.length ≤ m.stack.limit)
    (missing : p.functions[index]? = none) :
    start p profiler u index values m =
      .error (.invalidFunctionIndex index) (m.loaded values) := by
  have limit : Action.ofExcept (fun m : Machine => .ok m.stack.limit) m =
      .ok m.stack.limit m := rfl
  have enough : ¬ m.stack.limit < values.length := by omega
  unfold start
  rw [bind_of_ok limit, if_neg enough]
  simp only [bind_of_ok (forM_push room), missing]
  rfl

/-- Arguments for which there is no room are given back, whatever the surroundings are. -/
theorem start_of_crowded (p : Program) (index : Nat) (crowded : m.stack.limit < values.length) :
    ∃ fault after, ∀ {τ : Type} (other : Profiler τ) (v : τ),
      start p other v index values m = .error fault after := by
  cases released : values.forM release m with
  | ok _ after =>
    refine ⟨.stackOverflow m.stack.limit, after, ?_⟩
    intro τ other v
    rw [start_crowded p other v index crowded, bind_of_ok released]
    rfl
  | error fault after =>
    refine ⟨fault, after, ?_⟩
    intro τ other v
    rw [start_crowded p other v index crowded, bind_of_error released]

/-- A function starts in step, or cannot be started at all. -/
theorem start_tracks (offers : profiler.OffersFusions p u) (index : Nat) (values : List Value)
    (idle : m.frames = []) (empty : m.stack.entries = #[]) (base : m.stack.base = 0) :
    (∃ fault after, start p Profiler.none () index values m = .error fault after ∧
      start p profiler u index values m = .error fault after) ∨
    ∃ plain tiered, start p Profiler.none () index values m = .ok () plain ∧
      start p profiler u index values m = .ok () tiered ∧ InStep p plain tiered := by
  by_cases crowded : m.stack.limit < values.length
  · obtain ⟨fault, after, failed⟩ := start_of_crowded p index crowded
    exact .inl ⟨fault, after, failed _ _, failed _ _⟩
  have room : m.stack.entries.size + values.length ≤ m.stack.limit := by
    rw [empty, Array.size_empty, Nat.zero_add]
    exact Nat.le_of_not_lt crowded
  cases found : p.functions[index]? with
  | none => exact .inl ⟨_, _, start_of_missing room found, start_of_missing room found⟩
  | some f =>
    have callers (base : Nat) (_ : (m.loaded values).stack.base ≤ base) :
        CallersTrack p base none none (m.loaded values).frames (m.loaded values).frames := by
      have none_called : (m.loaded values).frames = [] := idle
      rw [none_called]
      exact .outermost base
    have visible : (m.loaded values).stack.base ≤ (m.loaded values).stack.entries.size := by
      have bottom : (m.loaded values).stack.base = 0 := base
      rw [bottom]
      exact Nat.zero_le _
    have isVersion := isVersion_of_offers offers found .start
    have plainVersion : Profiler.none.version index f () = f := rfl
    rw [start_of_room room found, start_of_room room found, plainVersion]
    rcases enter_tracks isVersion (.refl _) index callers visible with
      ⟨fault, failed, tieredFailed⟩ | entered
    · exact .inl ⟨fault, _, failed, tieredFailed⟩
    · exact .inr entered

end Starting

section Calls

variable {m : Machine} {index : Nat} {arguments : List HostValue}

/-- A call keeps in step with the plain call, until that finds no room inside a span. -/
theorem underway_tracks (balanced : m.heap.Balanced m.held) (offers : profiler.OffersFusions p u)
    (fuel index : Nat) (arguments : List HostValue) :
    ∃ count, count ≤ 4 * fuel ∧
      ((fuel ≤ count ∧ Matches p profiler (underway p Profiler.none count index arguments () m)
        (underway p profiler fuel index arguments u m)) ∨
      OverflowsInSpan p (underway p Profiler.none count index arguments () m)) := by
  have imported := unwind_keeps (m := { m with heap := (m.heap.importAll arguments).2 })
    (balanced.importAll arguments)
  have kept := start_keeps p Profiler.none () index imported rfl rfl
  rcases start_tracks offers index (m.heap.importAll arguments).1
      (m := unwind { m with heap := (m.heap.importAll arguments).2 }) rfl rfl rfl with
    ⟨fault, after, failed, tieredFailed⟩ | ⟨plain, tiered, started, tieredStarted, inStep⟩
  · refine ⟨fuel, by omega, .inl ⟨Nat.le_refl _, ?_⟩⟩
    simp only [underway, failed, tieredFailed]
    exact .faulted fault u (.refl after)
  · rw [started] at kept
    simp only [underway, started, tieredStarted]
    exact run_tracks fuel inStep kept offers

/-- More fuel does not change a call that has ended. -/
theorem underway_add_of_ended {fuel : Nat} {outcome : Except Fault (Option Value)}
    (ended : (underway p profiler fuel index arguments u m).outcome? = some outcome) (more : Nat) :
    underway p profiler (fuel + more) index arguments u m =
      underway p profiler fuel index arguments u m := by
  unfold underway at ended ⊢
  dsimp only at ended ⊢
  cases started : start p profiler u index (m.heap.importAll arguments).1
      (unwind { m with heap := (m.heap.importAll arguments).2 }) with
  | error fault after => rfl
  | ok _ after =>
    rw [started] at ended
    exact run_add_of_ended ended more

variable {name : String} (admitted : entryOf p name arguments = .ok index)

section Admitted

include admitted

/-- The host sees the same of two calls that have kept in step. -/
theorem call_alike {count fuel : Nat}
    (matched : Matches p profiler (underway p Profiler.none count index arguments () m)
      (underway p profiler fuel index arguments u m)) :
    (call p profiler fuel name arguments u m).outcome? =
        (call p Profiler.none count name arguments () m).outcome? ∧
      Alike (call p Profiler.none count name arguments () m).machine
        (call p profiler fuel name arguments u m).machine := by
  rw [call_eq_underway p profiler admitted, call_eq_underway p Profiler.none admitted]
  generalize underway p Profiler.none count index arguments () m = plainStatus at matched ⊢
  generalize underway p profiler fuel index arguments u m = tieredStatus at matched ⊢
  cases matched with
  | running offers inStep => exact ⟨rfl, inStep.alike⟩
  | faulted fault v alike => exact ⟨rfl, alike.unwind⟩
  | @finished answer v plain tiered alike =>
    cases answer with
    | none => exact ⟨rfl, alike⟩
    | some value =>
      have heap := alike.heap
      cases exported : Heap.exportHost value plain.heap with
      | ok answer after =>
        simp only [onHeap, heap, exported]
        exact ⟨rfl, alike.withHeap after⟩
      | error fault after =>
        simp only [onHeap, heap, exported]
        exact ⟨rfl, alike.withHeap after⟩

/-- A call that the host sees the end of has ended. -/
theorem underway_of_ended {fuel : Nat} {outcome : Except Fault (Option HostValue)}
    (ended : (call p profiler fuel name arguments u m).outcome? = some outcome) :
    ∃ inner, (underway p profiler fuel index arguments u m).outcome? = some inner := by
  rw [call_eq_underway p profiler admitted] at ended
  cases reached : underway p profiler fuel index arguments u m with
  | running v after =>
    rw [reached] at ended
    cases ended
  | finished answer v after => exact ⟨_, rfl⟩
  | faulted fault v after => exact ⟨_, rfl⟩

/-- The host sees an overflow inside a span as a stack overflow. -/
theorem outcome_of_overflows {fuel : Nat}
    (overflows : OverflowsInSpan p (underway p profiler fuel index arguments u m)) :
    ∃ limit, (call p profiler fuel name arguments u m).outcome? =
      some (.error (.stackOverflow limit)) := by
  obtain ⟨limit, v, after, reached, _⟩ := overflows
  rw [call_eq_underway p profiler admitted, reached]
  exact ⟨limit, rfl⟩

end Admitted

/-- More fuel does not change what the host sees of a call that has ended. -/
theorem call_add_of_ended {fuel : Nat} {outcome : Except Fault (Option HostValue)}
    (ended : (call p profiler fuel name arguments u m).outcome? = some outcome) (more : Nat) :
    call p profiler (fuel + more) name arguments u m = call p profiler fuel name arguments u m := by
  cases admitted : entryOf p name arguments with
  | error fault => rw [call_of_refused p profiler admitted, call_of_refused p profiler admitted]
  | ok index =>
    obtain ⟨inner, reached⟩ := underway_of_ended admitted ended
    rw [call_eq_underway p profiler admitted, call_eq_underway p profiler admitted,
      underway_add_of_ended reached]

/-- All calls with enough fuel to end are the same. -/
theorem call_eq_of_ended {fuel other : Nat} {first second : Except Fault (Option HostValue)}
    (ended : (call p profiler fuel name arguments u m).outcome? = some first)
    (endedToo : (call p profiler other name arguments u m).outcome? = some second) :
    call p profiler fuel name arguments u m = call p profiler other name arguments u m := by
  rw [← call_add_of_ended ended other, Nat.add_comm, call_add_of_ended endedToo]

/-- A plain call that ends with anything but a stack overflow ends in the same way when it is
tiered. -/
theorem call_of_plain {fuel : Nat} {outcome : Except Fault (Option HostValue)}
    (balanced : m.heap.Balanced m.held) (offers : profiler.OffersFusions p u)
    (ended : (call p Profiler.none fuel name arguments () m).outcome? = some outcome)
    (spared : ∀ limit, outcome ≠ .error (.stackOverflow limit)) :
    (call p profiler fuel name arguments u m).outcome? = some outcome ∧
      Alike (call p Profiler.none fuel name arguments () m).machine
        (call p profiler fuel name arguments u m).machine := by
  cases admitted : entryOf p name arguments with
  | error fault =>
    rw [call_of_refused p Profiler.none admitted] at ended ⊢
    rw [call_of_refused p profiler admitted]
    exact ⟨ended, .refl m⟩
  | ok index =>
    obtain ⟨count, _, matched⟩ := underway_tracks balanced offers fuel index arguments
    rcases matched with ⟨enough, matched⟩ | overflows
    · obtain ⟨same, alike⟩ := call_alike admitted matched
      obtain ⟨more, rfl⟩ := Nat.exists_eq_add_of_le enough
      rw [call_add_of_ended ended] at same alike
      exact ⟨same.trans ended, alike⟩
    · -- The overflow would be the end of the plain call too.
      obtain ⟨limit, overflow⟩ := outcome_of_overflows admitted overflows
      have once := call_add_of_ended ended count
      rw [Nat.add_comm, call_add_of_ended overflow] at once
      rw [once, ended] at overflow
      cases overflow
      exact absurd rfl (spared limit)

end Calls

/-- The profiler that has every function fused from the start. -/
def eager (p : Program) : Profiler Unit where
  recordCall _ _ state := state
  replacement? index _ := p.functions[index]?.bind fun f => (f.fuse p).toOption.map Fusion.function

/-- A profiler that offers every fusion at once offers fusions only. -/
theorem eager_offersFusions (p : Program) : (eager p).OffersFusions p () := by
  intro _ _ index f version found offered
  simp only [eager, found, Option.bind_some] at offered
  cases fused : f.fuse p with
  | error e =>
    rw [fused] at offered
    cases offered
  | ok fusion =>
    rw [fused] at offered
    cases offered
    exact ⟨fusion, fused, rfl⟩

/-- A program that counts its argument down to zero. -/
def countdownProgram : Program where
  intConstants := #[0, 1]
  floatConstants := #[]
  functions := #[.make "main" [⟨"n", .int⟩] .int 1
    (.ofList [.make .loadLocal 0, .make .pushInt 0, .make (.compareInt .ne) 0,
      .make (.jump (.when false)) 6, .make .loadLocal 0, .make .pushInt 1,
      .make (.intBinary .sub) 0, .make .storeLocal 0, .make (.jump .always) (-8),
      .make .loadLocal 0, .make .ret 0])]
  entry := "main"

/-- A program that answers with the number before its argument. -/
def decrementProgram : Program where
  intConstants := #[1]
  floatConstants := #[]
  functions := #[.make "main" [⟨"n", .int⟩] .int 1
    (.ofList [.make .loadLocal 0, .make .pushInt 0, .make (.intBinary .sub) 0,
      .make .storeLocal 0, .make .loadLocal 0, .make .ret 0])]
  entry := "main"

-- With room for one operand only, the plain call ends inside the span and the tiered one does not.
example : (call decrementProgram Profiler.none 40 "main" [.int 3] ()
      (create { stackSize := 1 })).outcome? = some (.error (.stackOverflow 1)) ∧
    (call decrementProgram (eager decrementProgram) 40 "main" [.int 3] ()
      (create { stackSize := 1 })).outcome? = some (.ok (some (.int 2))) := by
  constructor <;> cbv

end Machine

end HotPath
