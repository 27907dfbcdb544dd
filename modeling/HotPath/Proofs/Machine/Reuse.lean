import HotPath.Proofs.Machine.Mirroring
import HotPath.Proofs.Machine.Quiescence

/-!
# A machine that has been used is as good as new

A call on a machine that earlier calls have left behind does what it does on a new one: it ends
when the other one does, with the same answer or the same fault, prints the same lines,
executes as many instructions, enters as many frames, and puts as many arrays on the heap
and takes as many off. What the earlier calls have left on the heap, which is empty slots
in some order and of some generations, is never seen.

The two executions are followed side by side. `step_matched` keeps them matched over one step,
whatever it does, `run_matched` over a run, and `call_matched` over a call.
-/

namespace HotPath

namespace Machine

open HotPath.Action

/-- The two ends of an instruction go together. After it, a call is in progress, or the outermost
one has returned, or there was a fault. -/
inductive Onward (past : Past) : EStateM.Result Fault Machine Progress →
    EStateM.Result Fault Machine Progress → Prop where
  | goesOn {progress : Progress} (goesOn : progress.goesOn = true) {m n : Machine}
    (twins : Twins past m n []) : Onward past (.ok progress m) (.ok progress n)
  | finished {value other : Option Value} {handed : Pairs}
    (answered : Answered value other handed) {m n : Machine} (matched : Matched past m n handed) :
    Onward past (.ok (.finished value) m) (.ok (.finished other) n)
  | failed (fault : Fault) {m n : Machine} (matched : Matched past m n []) :
    Onward past (.error fault m) (.error fault n)

/-- From twins that hold `taken` in hand, the two actions lead to the same. -/
def Advancing (past : Past) (taken : Pairs) (action image : Action Machine Progress) : Prop :=
  ∀ m n, Twins past m n taken → Onward past (action m) (image n)

namespace Advancing

variable {past : Past} {taken : Pairs}

/-- What follows an operation with the same outcome on both machines advances both alike. -/
theorem bind {α : Type} {action image : Action Machine α} {given : α → α → Pairs → Prop}
    {rest follow : α → Action Machine Progress}
    (first : Mirrors (Twins past) taken action image given)
    (second : ∀ answer other handed, given answer other handed →
      Advancing past handed (rest answer) (follow other)) :
    Advancing past taken (action >>= rest) (image >>= follow) := by
  intro m n twins
  have early := first m n [] (by rwa [List.append_nil])
  rw [bind_apply, bind_apply]
  generalize action m = result at early
  generalize image n = reflection at early
  cases early with
  | ok answers twins =>
    rw [List.append_nil] at twins
    exact second _ _ _ answers _ _ twins
  | error fault twins => exact .failed fault twins.2

/-- The same fault on both machines advances neither. -/
theorem throw (fault : Fault) :
    Advancing past [] (MonadExcept.throw fault) (MonadExcept.throw fault) :=
  fun _ _ twins => .failed fault twins.2

/-- Going on advances both machines alike. -/
theorem pure {progress : Progress} (goesOn : progress.goesOn = true) :
    Advancing past [] (Pure.pure progress) (Pure.pure progress) :=
  fun _ _ twins => .goesOn goesOn twins

end Advancing

section Frames

variable {past : Past}

/-- What is read off the innermost frames is the same, if their slots do not matter. -/
theorem top_mirrors {α : Type} {read : Frame → α}
    (same : ∀ frame locals, read { frame with locals } = read frame) :
    Mirrors (Twins past) [] (top read) (top read) (Kept []) := by
  rintro ⟨limits, h, stack, calls, output, counts⟩ ⟨_, g, _, others, _, _⟩ kept twins
  obtain ⟨ready, slots, entries, parallel, heap⟩ := twins
  rcases parallel.frames.cases_calls with
    ⟨rfl, -⟩ | ⟨frame, locals, callers, waiting, own, rest, rfl, rfl, rfl, here, others⟩
  · exact absurd rfl ready
  · simp only [top, frames, CallStack.frames_push, same]
    exact .ok (.intro trivial) ⟨ready, _, entries, parallel, heap⟩

/-- Both machines go to the same address. -/
theorem goto_mirrors (address : Nat) :
    Mirrors (Twins past) [] (goto address) (goto address) (Kept []) := by
  rintro ⟨limits, h, stack, calls, output, counts⟩ ⟨_, g, _, others, _, _⟩ kept
    ⟨ready, slots, entries, parallel, heap⟩
  rcases parallel.frames.cases_calls with
    ⟨rfl, -⟩ | ⟨frame, locals, callers, waiting, own, rest, rfl, rfl, rfl, here, others⟩
  · exact absurd rfl ready
  · exact .ok (.intro trivial) ⟨List.cons_ne_nil _ _, _, entries,
      { parallel with frames := .cons here others }, heap⟩

/-- An instruction is counted on both machines. -/
theorem countInstruction_mirrors :
    Mirrors (Twins past) [] countInstruction countInstruction (Kept []) := by
  rintro ⟨limits, h, stack, calls, output, counts⟩ ⟨_, g, _, others, _, _⟩ kept
    ⟨ready, slots, entries, parallel, heap⟩
  exact .ok (.intro trivial) ⟨ready, slots, entries,
    { parallel with instructions := congrArg Nat.succ parallel.instructions }, heap⟩

/-- The values of frames that have been left become operands of the callers or answers. -/
theorem handOver_onward {value other : Option Value} {handed : Pairs}
    (answered : Answered value other handed) {m n : Machine} (matched : Matched past m n handed)
    (frame : Frame) (locals : Locals) :
    Onward past (handOver frame value m) (handOver { frame with locals } other n) := by
  obtain ⟨limits, h, stack, calls, output, counts⟩ := m
  obtain ⟨_, g, operands, waiting, _, _⟩ := n
  have ⟨slots, entries, parallel, heap⟩ := matched
  rcases parallel.frames.cases_calls with
    ⟨rfl, rfl, -⟩ | ⟨caller, slots, callers, others, own, rest, rfl, rfl, rfl, here, outer⟩
  · exact .finished answered matched
  let address := frame.returnAddress.getD caller.pc
  have resumed : Twins past
      ⟨_, h, stack.setBase caller.base, callers.push { caller with pc := address }, output, counts⟩
      ⟨_, g, operands.setBase caller.base,
        others.push { caller with locals := slots, pc := address }, _, _⟩ handed :=
    ⟨List.cons_ne_nil _ _, own ++ rest, entries,
      { parallel with
        stack := { parallel.stack with base := rfl }
        frames := .cons here outer }, heap⟩
  cases answered with
  | none => exact .goesOn rfl resumed
  | some value other =>
    have pushed : Advancing past [(value, other)] (do push value; return .running)
        (do push other; return .running) := by
      apply Advancing.bind (push_mirrors value other)
      rintro _ _ _ ⟨-⟩
      exact .pure rfl
    exact pushed _ _ resumed

/-- Both frames give back what they hold, and that is the same. -/
theorem leave_advancing {value other : Option Value} {handed : Pairs}
    (answered : Answered value other handed) :
    Advancing past handed (leave value) (leave other) := by
  rintro ⟨limits, h, stack, calls, output, counts⟩ ⟨_, g, operands, waiting, _, _⟩
    ⟨ready, slots, entries, parallel, heap⟩
  rcases parallel.frames.cases_calls with
    ⟨rfl, -⟩ | ⟨frame, locals, callers, others, own, rest, rfl, rfl, rfl, here, outer⟩
  · exact absurd rfl ready
  have paired : stack.Alike past.limits.stackSize operands entries := parallel.stack
  -- What the frame gives back stands in front: its slots, then its operands from the top down.
  have parted : h.Twins past.heap g (own ++ ((entries.drop frame.base).reverse ++
      (handed ++ (rest ++ entries.take frame.base)))) := by
    refine heap.of_count_eq fun pair => ?_
    have whole := congrArg (List.count pair) (List.take_append_drop frame.base entries)
    simp only [List.count_append, List.count_reverse] at whole ⊢
    omega
  obtain ⟨between, meanwhile, released, releasedToo, twins⟩ := parted.releaseEach
  obtain ⟨after, afterwards, dropped, droppedToo, twins⟩ := twins.releaseEach
  obtain ⟨above, aboveToo⟩ := paired.above frame.base
  let image : Frame := { frame with locals }
  have slotsToo : image.locals.slots.toList = own.map Prod.snd := here.right
  have operandsToo : operands.above image.base =
      (entries.drop frame.base).reverse.map Prod.snd := aboveToo
  rw [← here.left] at released
  rw [← slotsToo] at releasedToo
  rw [← above] at dropped
  rw [← operandsToo] at droppedToo
  rw [leave_of_released released dropped, leave_of_released releasedToo droppedToo]
  apply handOver_onward answered
  exact ⟨rest, entries.take frame.base,
    { parallel with stack := paired.truncate frame.base, frames := outer }, twins⟩

end Frames

section Steps

variable {past : Past}

/-- Control is handed over to the same place on both machines. -/
theorem proceed_advancing (p : Program) (address : Nat) {transfer other : Transfer}
    {handed : Pairs} (goes : Goes transfer other handed) :
    Advancing past handed (proceed p address transfer) (proceed p address other) := by
  cases goes with
  | next =>
    apply Advancing.bind (goto_mirrors (address + 1))
    rintro _ _ _ ⟨-⟩
    exact .pure rfl
  | goto target =>
    apply Advancing.bind (goto_mirrors target)
    rintro _ _ _ ⟨-⟩
    exact .pure rfl
  | leave answered => exact leave_advancing answered
  | call index =>
    cases found : p.functions[index]? with
    | some callee =>
      simp only [proceed, found]
      exact .pure rfl
    | none =>
      simp only [proceed, found]
      exact .throw _

/-- An instruction does the same to twins, control included. -/
theorem advance_advancing (p : Program) : Advancing past [] (advance p) (advance p) := by
  apply Advancing.bind (top_mirrors fun _ _ => rfl)
  rintro ⟨pc, code⟩ _ _ ⟨-⟩
  dsimp only
  split
  next => exact leave_advancing .none
  next record _ =>
    split
    next => exact .throw _
    next i _ =>
      apply Advancing.bind (countInstruction_mirrors)
      rintro _ _ _ ⟨-⟩
      apply Advancing.bind (perform_mirrors p i pc code.instructionCount)
      intro transfer other handed goes
      exact proceed_advancing p pc goes

/-- The two ends of entering a function go together. -/
inductive Begun (past : Past) : EStateM.Result Fault Machine Unit →
    EStateM.Result Fault Machine Unit → Prop where
  | entered {m n : Machine} (twins : Twins past m n []) : Begun past (.ok () m) (.ok () n)
  | failed (fault : Fault) {m n : Machine} (matched : Matched past m n []) :
    Begun past (.error fault m) (.error fault n)

/-- A function is entered on both sides, with arguments that go together, or on neither. -/
theorem enter_begun {m n : Machine} (matched : Matched past m n []) (index : Nat) (f : Function)
    (returnAddress : Option Nat) :
    Begun past (enter index f returnAddress m) (enter index f returnAddress n) := by
  obtain ⟨slots, entries, parallel, heap⟩ := id matched
  obtain ⟨size, sizeToo⟩ := parallel.stack.size
  have limits : m.limits = n.limits := parallel.limits.trans parallel.limitsToo.symm
  have depth : m.depth = n.depth := by
    rw [depth_eq_length, depth_eq_length, parallel.frames.length_eq]
  have visible : m.stack.visible = n.stack.visible := by
    simp only [OperandStack.visible, OperandStack.size, size, sizeToo, parallel.stack.base]
  by_cases deep : m.limits.callDepth ≤ m.depth
  · have deepToo : n.limits.callDepth ≤ n.depth := by rwa [← limits, ← depth]
    rw [enter_deep deep, enter_deep deepToo, limits]
    exact .failed _ matched
  have deepToo : ¬ n.limits.callDepth ≤ n.depth := by rwa [← limits, ← depth]
  by_cases few : m.stack.visible < f.arity
  · have fewToo : n.stack.visible < f.arity := by rwa [← visible]
    rw [enter_starved (Nat.lt_of_not_le deep) few, enter_starved (Nat.lt_of_not_le deepToo) fewToo]
    exact .failed _ matched
  have fewToo : ¬ n.stack.visible < f.arity := by rwa [← visible]
  unfold enter
  rw [if_neg deep, if_neg deepToo, if_neg few, if_neg fewToo]
  -- The arguments move to the slots, and the slots that stay empty hold pairs of their own.
  let height := m.stack.size - f.arity
  have base : n.stack.size - f.arity = height := by
    simp only [OperandStack.size, size, sizeToo, height]
  let blank := List.replicate (f.localCount - (entries.drop height).length) (Value.null, Value.null)
  have started : m.heap.Twins past.heap n.heap
      ([] ++ (entries.drop height ++ blank ++ slots ++ entries.take height)) := by
    have filled := (Heap.Twins.replicate_null_iff
      (f.localCount - (entries.drop height).length)).mpr heap
    refine filled.of_count_eq fun pair => ?_
    have whole := congrArg (List.count pair) (List.take_append_drop height entries)
    simp only [List.count_append, List.count_nil, blank] at whole ⊢
    omega
  rw [base]
  refine .entered ⟨List.cons_ne_nil _ _, entries.drop height ++ blank ++ slots,
    entries.take height, ?_, started⟩
  exact
    { parallel with
      stack := { parallel.stack.truncate height with base := rfl }
      frames := .cons (parallel.stack.arguments height f.localCount) parallel.frames
      calls := congrArg Nat.succ parallel.calls }

end Steps

section Runs

variable {σ : Type} {past : Past} (p : Program) (profiler : Profiler σ)

/-- The two executions are at the same point. -/
inductive StatusMatched (past : Past) :
    Status σ (Option Value) → Status σ (Option Value) → Prop where
  | running (s : σ) {m n : Machine} (twins : Twins past m n []) :
    StatusMatched past (.running s m) (.running s n)
  | finished {value other : Option Value} {handed : Pairs}
    (answered : Answered value other handed) (s : σ) {m n : Machine}
    (matched : Matched past m n handed) :
    StatusMatched past (.finished value s m) (.finished other s n)
  | faulted (fault : Fault) (s : σ) {m n : Machine} (matched : Matched past m n []) :
    StatusMatched past (.faulted fault s m) (.faulted fault s n)

/-- A step does the same to twins. The surroundings are told the same about both and offer the same
to both. -/
theorem step_matched (s : σ) {m n : Machine} (twins : Twins past m n []) :
    StatusMatched past (step p profiler s m) (step p profiler s n) := by
  have advanced := advance_advancing p m n twins
  rw [step_eq_conclude, step_eq_conclude]
  generalize advance p m = result at advanced
  generalize advance p n = reflection at advanced
  cases advanced with
  | failed fault matched => exact .faulted fault s matched
  | finished answered matched => exact .finished answered s matched
  | @goesOn progress goesOn after afterwards twins =>
    cases progress with
    | running => exact .running s twins
    | finished value => cases goesOn
    | calling index callee returnAddress =>
      let u := profiler.recordCall index callee s
      have begun := enter_begun twins.2 index (profiler.version index callee u)
        (some returnAddress)
      simp only [conclude]
      generalize enter index (profiler.version index callee u) (some returnAddress) after = first
        at begun
      generalize enter index (profiler.version index callee u) (some returnAddress) afterwards =
        second at begun
      cases begun with
      | entered twins => exact .running u twins
      | failed fault matched => exact .faulted fault u matched

/-- Any number of steps does the same to twins. -/
theorem run_matched (fuel : Nat) (s : σ) {m n : Machine} (twins : Twins past m n []) :
    StatusMatched past (run p profiler fuel s m) (run p profiler fuel s n) := by
  induction fuel generalizing s m n with
  | zero => exact .running s twins
  | succ fuel ih =>
    have once := step_matched p profiler s twins
    unfold run
    generalize step p profiler s m = first at once
    generalize step p profiler s n = second at once
    cases once with
    | running u twins => exact ih u twins
    | finished answered u matched => exact .finished answered u matched
    | faulted fault u matched => exact .faulted fault u matched

end Runs

section Calls

variable {past : Past} {m n : Machine}

/-- Unwinding gives the same back on both sides. -/
theorem unwind_parallel {slots entries inHand : Pairs} (parallel : Parallel past m n slots entries)
    (heap : m.heap.Twins past.heap n.heap (inHand ++ (slots ++ entries))) :
    Parallel past m.unwind n.unwind [] [] ∧
      m.unwind.heap.Twins past.heap n.unwind.heap inHand := by
  obtain ⟨left, right⟩ := parallel.frames.flatMap_eq
  obtain ⟨above, aboveToo⟩ := parallel.stack.above 0
  have held : m.held = (slots ++ (entries.drop 0).reverse).map Prod.fst := by
    rw [Machine.held, left, above, List.map_append]
  have heldToo : n.held = (slots ++ (entries.drop 0).reverse).map Prod.snd := by
    rw [Machine.held, right, aboveToo, List.map_append]
  have parted : m.heap.Twins past.heap n.heap (slots ++ (entries.drop 0).reverse ++ inHand) := by
    refine heap.of_count_eq fun pair => ?_
    simp only [List.count_append, List.count_reverse, List.drop_zero]
    omega
  obtain ⟨after, afterwards, released, releasedToo, twins⟩ := parted.releaseEach
  rw [← held] at released
  rw [← heldToo] at releasedToo
  constructor
  · exact
      { parallel with
        stack := { parallel.stack with left := rfl, right := rfl, base := rfl }
        frames := .nil }
  · simpa only [unwind, Action.after, released, releasedToo] using twins

/-- Giving back values in hand does the same on both sides. -/
theorem forM_release_twins {values held : Pairs}
    (heap : m.heap.Twins past.heap n.heap (values ++ held)) :
    ∃ after afterwards, (values.map Prod.fst).forM release m = .ok () { m with heap := after } ∧
      (values.map Prod.snd).forM release n = .ok () { n with heap := afterwards } ∧
      after.Twins past.heap afterwards held := by
  induction values generalizing m n with
  | nil => exact ⟨m.heap, n.heap, rfl, rfl, heap⟩
  | cons pair rest ih =>
    obtain ⟨between, meanwhile, first, firstToo, heap⟩ := heap.releaseValue
    have released : release pair.1 m = .ok () { m with heap := between } := by
      simp only [release, onHeap, first]
    have releasedToo : release pair.2 n = .ok () { n with heap := meanwhile } := by
      simp only [release, onHeap, firstToo]
    obtain ⟨after, afterwards, others, othersToo, heap⟩ :=
      ih (m := { m with heap := between }) (n := { n with heap := meanwhile }) heap
    refine ⟨after, afterwards, ?_, ?_, heap⟩
    · change (release pair.1 >>= fun _ => (rest.map Prod.fst).forM release) m = _
      rw [bind_of_ok released]
      exact others
    · change (release pair.2 >>= fun _ => (rest.map Prod.snd).forM release) n = _
      rw [bind_of_ok releasedToo]
      exact othersToo

variable {σ : Type} (p : Program) (profiler : Profiler σ)

/-- Idle machines start on arguments that go together. -/
theorem start_begun (s : σ) (index : Nat) {values : Pairs}
    (parallel : Parallel past m n [] []) (heap : m.heap.Twins past.heap n.heap values) :
    Begun past (start p profiler s index (values.map Prod.fst) m)
      (start p profiler s index (values.map Prod.snd) n) := by
  have limits : m.stack.limit = n.stack.limit := parallel.stack.capacity_eq
  obtain ⟨size, sizeToo⟩ := parallel.stack.size
  by_cases crowded : m.stack.limit < values.length
  · have given : m.heap.Twins past.heap n.heap (values ++ []) := by rwa [List.append_nil]
    obtain ⟨after, afterwards, released, releasedToo, heap⟩ := forM_release_twins given
    rw [start_crowded p profiler s index (by rwa [List.length_map]), bind_of_ok released,
      start_crowded p profiler s index (by rwa [List.length_map, ← limits]),
      bind_of_ok releasedToo, limits]
    exact .failed _ ⟨[], [], { parallel with }, heap⟩
  have room : m.stack.entries.size + (values.map Prod.fst).length ≤ m.stack.limit := by
    rw [size, List.length_map]
    simpa using crowded
  have roomToo : n.stack.entries.size + (values.map Prod.snd).length ≤ n.stack.limit := by
    rw [sizeToo, List.length_map, ← limits]
    simpa using crowded
  have loaded : Matched past (m.loaded (values.map Prod.fst)) (n.loaded (values.map Prod.snd)) [] :=
    ⟨[], values,
      { parallel with
        stack :=
          { parallel.stack with
            left := by
              simp [Machine.loaded, parallel.stack.left]
            right := by
              simp [Machine.loaded, parallel.stack.right] } }, heap⟩
  cases found : p.functions[index]? with
  | none =>
    rw [start_of_missing room found, start_of_missing roomToo found]
    exact .failed _ loaded
  | some f =>
    rw [start_of_room room found, start_of_room roomToo found]
    exact enter_begun loaded index _ none

/-- A call keeps machines matched, in every state of it. -/
theorem underway_matched (fuel index : Nat) (arguments : List HostValue) (s : σ)
    (matched : Matched past m n []) :
    StatusMatched past (underway p profiler fuel index arguments s m)
      (underway p profiler fuel index arguments s n) := by
  obtain ⟨slots, entries, parallel, heap⟩ := matched
  obtain ⟨values, left, right, imported⟩ := heap.importAll arguments
  have together : Parallel past { m with heap := (m.heap.importAll arguments).2 }
    { n with heap := (n.heap.importAll arguments).2 } slots entries := { parallel with }
  obtain ⟨idle, heap⟩ := unwind_parallel together imported
  have begun := start_begun p profiler s index idle heap
  unfold underway
  dsimp only
  rw [left, right]
  generalize start p profiler s index (values.map Prod.fst)
    (unwind { m with heap := (m.heap.importAll arguments).2 }) = first at begun ⊢
  generalize start p profiler s index (values.map Prod.snd)
    (unwind { n with heap := (n.heap.importAll arguments).2 }) = second at begun ⊢
  cases begun with
  | entered twins => exact run_matched p profiler fuel s twins
  | failed fault matched => exact .faulted fault s matched

/-- What the host sees of a call is the same on both sides, and the machines stay matched. -/
theorem call_matched (fuel : Nat) (name : String) (arguments : List HostValue) (s : σ)
    (matched : Matched past m n []) :
    (call p profiler fuel name arguments s m).outcome? =
        (call p profiler fuel name arguments s n).outcome? ∧
      (call p profiler fuel name arguments s m).profile =
        (call p profiler fuel name arguments s n).profile ∧
      Matched past (call p profiler fuel name arguments s m).machine
        (call p profiler fuel name arguments s n).machine [] := by
  cases admitted : entryOf p name arguments with
  | error fault =>
    rw [call_of_refused p profiler admitted, call_of_refused p profiler admitted]
    exact ⟨rfl, rfl, matched⟩
  | ok index =>
    rw [call_eq_underway p profiler admitted, call_eq_underway p profiler admitted]
    have status := underway_matched p profiler fuel index arguments s matched
    generalize underway p profiler fuel index arguments s m = first at status
    generalize underway p profiler fuel index arguments s n = second at status
    cases status with
    | running u twins => exact ⟨rfl, rfl, twins.2⟩
    | faulted fault u matched =>
      obtain ⟨slots, entries, parallel, heap⟩ := matched
      obtain ⟨parallel, heap⟩ := unwind_parallel parallel heap
      exact ⟨rfl, rfl, [], [], parallel, heap⟩
    | @finished value other handed answered u after afterwards matched =>
      cases answered with
      | none => exact ⟨rfl, rfl, matched⟩
      | some value other =>
        obtain ⟨slots, entries, parallel, heap⟩ := matched
        obtain ⟨answer, left, right, exported, exportedToo, heap⟩ := heap.exportHost
        have handedOver : onHeap (Heap.exportHost value) after =
            .ok answer { after with heap := left } := by
          simp only [onHeap, exported]
        have handedOverToo : onHeap (Heap.exportHost other) afterwards =
            .ok answer { afterwards with heap := right } := by
          simp only [onHeap, exportedToo]
        dsimp only
        rw [handedOver, handedOverToo]
        exact ⟨rfl, rfl, slots, entries, { parallel with }, heap⟩

end Calls

/-- What a machine has behind it now. -/
def past (m : Machine) : Past := ⟨m.limits, m.output, m.counts, m.heap.counts⟩

/-- Where nothing is held, a machine matches a new one. -/
theorem matched_create {m : Machine} (quiescent : Quiescent m) (balanced : m.heap.Balanced m.held)
    (capacity : m.stack.limit = m.limits.stackSize) : Matched m.past m (create m.limits) [] := by
  have unheld : m.held = [] := by
    rw [held, quiescent.frames, OperandStack.above_eq, quiescent.entries]
    rfl
  rw [unheld] at balanced
  refine ⟨[], [], ?_, ?_⟩
  · constructor
    case limits => rfl
    case limitsToo => rfl
    case stack =>
      constructor
      case left => rw [quiescent.entries]; rfl
      case right => rfl
      case base => exact quiescent.base
      case limit => exact capacity
      case limitToo => rfl
    case frames =>
      rw [quiescent.frames]
      exact .nil
    case output => exact (Array.append_empty).symm
    case instructions => rfl
    case calls => rfl
  · constructor
    case left => exact balanced
    case right => exact Heap.balanced_empty
    case like => exact fun pair member => absurd member List.not_mem_nil
    case same => exact fun member => absurd member List.not_mem_nil
    case matched => exact fun member => absurd member List.not_mem_nil
    case allocations => rfl
    case frees => rfl

/-- The stack keeps the capacity that the limits give it. -/
theorem Served.capacity {m : Machine} (served : Served m) :
    m.stack.limit = m.limits.stackSize := by
  -- A call that is matched with one on a new machine ends with the limits of that machine.
  induction served with
  | created limits => rfl
  | outputTaken _ ih => exact ih
  | @called σ m earlier p profiler s offers fuel name arguments outcome ended ih =>
    have matched := matched_create earlier.quiescent.1 earlier.hosted.balanced ih
    obtain ⟨_, _, _, _, parallel, _⟩ := call_matched p profiler fuel name arguments s matched
    rw [parallel.stack.limit, parallel.limits]

/-- A machine that has done what a new one has done, on top of what was behind it before. -/
structure AddsTo (before new after : Machine) : Prop where
  output : after.output = before.output ++ new.output
  instructions :
    after.counts.instructions = before.counts.instructions + new.counts.instructions
  calls : after.counts.calls = before.counts.calls + new.counts.calls
  allocations :
    after.heap.counts.allocations = before.heap.counts.allocations + new.heap.counts.allocations
  frees : after.heap.counts.frees = before.heap.counts.frees + new.heap.counts.frees

/-- After any history of calls, the next call is what it is on a new machine with the same limits.
However many instructions it is given, it has ended on both or on neither and with the same
outcome, and what it has printed, executed, entered, put on the heap and taken off is the
same. -/
theorem reuse_unobservable {m : Machine} (served : Served m) {σ : Type} (p : Program)
    (profiler : Profiler σ) (name : String) (arguments : List HostValue) (s : σ) (fuel : Nat) :
    (call p profiler fuel name arguments s m).outcome? =
        (call p profiler fuel name arguments s (create m.limits)).outcome? ∧
      (call p profiler fuel name arguments s m).profile =
        (call p profiler fuel name arguments s (create m.limits)).profile ∧
      AddsTo m (call p profiler fuel name arguments s (create m.limits)).machine
        (call p profiler fuel name arguments s m).machine := by
  have matched := matched_create served.quiescent.1 served.hosted.balanced served.capacity
  obtain ⟨outcome, profile, slots, entries, parallel, heap⟩ :=
    call_matched p profiler fuel name arguments s matched
  refine ⟨outcome, profile, ?_⟩
  constructor
  case output => exact parallel.output
  case instructions => exact parallel.instructions
  case calls => exact parallel.calls
  case allocations => exact heap.allocations
  case frees => exact heap.frees

/-- A program that prints its first argument and answers with as many zeros as the second one
says. -/
def zerosProgram : Program where
  intConstants := #[]
  floatConstants := #[]
  functions := #[.make "main" [⟨"numbers", .array .int⟩, ⟨"n", .int⟩] (.array .int) 2
    (.ofList [.make .loadLocal 0, .make .print 0, .make .loadLocal 1, .make .newArray 0,
      .make .ret 0])]
  entry := "main"

/-- A machine that has answered one call and faulted in another. -/
def usedMachine : Machine :=
  (call zerosProgram Profiler.none 8 "main" [.array (.ints #[5]), .int (-1)] ()
    (call zerosProgram Profiler.none 8 "main" [.array (.ints #[5]), .int 1] ()
      (create {})).machine).machine

/-- On the used machine the argument gets another slot and another generation than on a new one. -/
theorem reuse_unobservable_zerosProgram :
    Served usedMachine ∧
      (usedMachine.heap.allocate (.ints #[3])).1 = ⟨1, 2⟩ ∧
      ((create usedMachine.limits).heap.allocate (.ints #[3])).1 = ⟨0, 0⟩ ∧
      (call zerosProgram Profiler.none 8 "main" [.array (.ints #[3]), .int 2] ()
        usedMachine).outcome? = some (.ok (some (.array (.ints #[0, 0])))) ∧
      (call zerosProgram Profiler.none 8 "main" [.array (.ints #[3]), .int 2] ()
        (create usedMachine.limits)).outcome? = some (.ok (some (.array (.ints #[0, 0])))) ∧
      AddsTo usedMachine
        (call zerosProgram Profiler.none 8 "main" [.array (.ints #[3]), .int 2] ()
          (create usedMachine.limits)).machine
        (call zerosProgram Profiler.none 8 "main" [.array (.ints #[3]), .int 2] ()
          usedMachine).machine := by
  have offers := Profiler.none_offersFusions zerosProgram ()
  have answered : (call zerosProgram Profiler.none 8 "main" [.array (.ints #[5]), .int 1] ()
      (create {})).outcome? = some (.ok (some (.array (.ints #[0])))) := by decide +kernel
  have faulted : (call zerosProgram Profiler.none 8 "main" [.array (.ints #[5]), .int (-1)] ()
      (call zerosProgram Profiler.none 8 "main" [.array (.ints #[5]), .int 1] ()
        (create {})).machine).outcome? = some (.error (.arrayIndexOutOfBounds (-1) 0)) := by
    decide +kernel
  have served : Served usedMachine :=
    ((Served.created {}).called offers 8 "main" _ answered).called offers 8 "main" _ faulted
  have ended : (call zerosProgram Profiler.none 8 "main" [.array (.ints #[3]), .int 2] ()
      usedMachine).outcome? = some (.ok (some (.array (.ints #[0, 0])))) := by decide +kernel
  obtain ⟨same, -, adds⟩ := reuse_unobservable served zerosProgram Profiler.none "main"
    [.array (.ints #[3]), .int 2] () 8
  exact ⟨served, by decide +kernel, by decide +kernel, ended, same.symm.trans ended, adds⟩

end Machine

end HotPath
