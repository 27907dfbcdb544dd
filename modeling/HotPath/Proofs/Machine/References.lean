import HotPath.Proofs.Machine.Numbering
import HotPath.Proofs.Machine.Ownership
import Mathlib.Algebra.Ring.Nat

/-!
# References are exact in every reachable state

Between two instructions a machine holds references in two kinds of places only:
the slots of the frames and the operands. `References m inHand` says that the
heap counts exactly these and, once the outermost frame has returned, the answer
that is in hand.

`step_keeps` preserves this over one instruction, `run_keeps` over any number of
them, and `Hosted` collects the machines that a host can have after any history of
calls. All this is about ids that keep the whole number of a slot; `underway_narrows` and
`Narrow.Hosted.whole` carry it over to ids of 32 bits, for which `references_exact` states it.
-/

namespace HotPath

/-- What is in hand when the outermost frame has returned. -/
def Progress.inHand : Progress → List Value
  | .finished value => value.toList
  | _ => []

/-- Whether frames are left to go on with. -/
def Progress.goesOn : Progress → Bool
  | .finished _ => false
  | _ => true

namespace Machine

open HotPath.Action Holder

/-- An action that goes on, calls or returns gives back all of `taken` except the answer. -/
def Accounts (taken : List Value) (action : Action Machine Progress) : Prop :=
  ∀ m, Holder.Balanced m taken →
    match action m with
    | .ok progress after =>
      after.heap.Balanced (progress.inHand ++ after.held) ∧
        (progress.goesOn → after.frames ≠ [])
    | .error fault after => after.heap.Balanced after.held ∧ fault.blamesCounting = false

namespace Accounts

variable {α : Type} {taken : List Value} {given : α → List Value} {answers : α → Prop}

/-- What an action gives is taken by what follows it. -/
theorem bind {action : Action Machine α} {rest : α → Action Machine Progress}
    (first : Conserves taken action given answers)
    (second : ∀ answer, answers answer → Accounts (given answer) (rest answer)) :
    Accounts taken (action >>= rest) := by
  intro m balanced
  have result := first m [] (by rwa [List.append_nil])
  rw [bind_apply]
  cases ran : action m with
  | ok answer after =>
    rw [ran] at result
    obtain ⟨balance, holds⟩ := result
    rw [List.append_nil] at balance
    exact second answer holds after balance
  | error fault after =>
    rw [ran] at result
    exact ⟨result.1.2, result.2⟩

/-- A fault that blames nobody's counting may end an instruction once nothing is in hand. -/
theorem throw {fault : Fault} (spared : fault.blamesCounting = false) :
    Accounts [] (MonadExcept.throw fault) :=
  fun _ balanced => ⟨balanced.2, spared⟩

/-- An instruction may end once nothing is in hand. -/
theorem pure {progress : Progress} (leaves : progress.inHand = []) :
    Accounts [] (Pure.pure progress) := by
  intro m balanced
  refine ⟨?_, fun _ => balanced.1⟩
  rw [leaves]
  exact balanced.2

end Accounts

section Frames

/-- Reading the innermost frame is about no reference. -/
theorem top_conserves {α : Type} (read : Frame → α) : Conserves [] (top read) fun _ => [] := by
  intro m others balanced
  simp only [top]
  cases m.frames with
  | nil => exact ⟨balanced, rfl⟩
  | cons frame callers => exact ⟨balanced, trivial⟩

/-- Going to an address is about no reference. -/
theorem goto_conserves (address : Nat) : Conserves [] (goto address) fun _ => [] := by
  rintro ⟨limits, h, stack, calls, output, counts⟩ others ⟨ready, balanced⟩
  obtain rfl | ⟨frame, callers, rfl⟩ := calls.eq_empty_or_push
  · exact absurd rfl ready
  · exact ⟨⟨List.cons_ne_nil _ _, balanced⟩, trivial⟩

/-- Counting an instruction is about no reference. -/
theorem countInstruction_conserves : Conserves [] countInstruction fun _ => [] :=
  fun _ _ balanced => ⟨balanced, trivial⟩

/-- The value of a frame that has been left becomes an operand of the caller or the answer. -/
theorem handOver_balanced {m : Machine} {frame : Frame} {value : Option Value}
    (balanced : m.heap.Balanced (value.toList ++ m.held)) :
    match handOver frame value m with
    | .ok progress after =>
      after.heap.Balanced (progress.inHand ++ after.held) ∧
        (progress.goesOn → after.frames ≠ [])
    | .error fault after => after.heap.Balanced after.held ∧ fault.blamesCounting = false := by
  obtain ⟨limits, h, stack, calls, output, counts⟩ := m
  obtain rfl | ⟨caller, callers, rfl⟩ := calls.eq_empty_or_push
  · refine ⟨balanced, ?_⟩
    intro goesOn
    cases goesOn
  · have resumed : Holder.Balanced (σ := Machine) ⟨limits, h, stack.setBase caller.base,
        callers.push { caller with pc := frame.returnAddress.getD caller.pc }, output, counts⟩
        value.toList := balanced_iff.mpr ⟨List.cons_ne_nil _ _, balanced⟩
    cases value with
    | none => exact Accounts.pure rfl _ resumed
    | some value =>
      exact Accounts.bind (push_conserves value) (fun _ _ => Accounts.pure rfl) _ resumed

/-- The operands without those of a frame. -/
def below (stack : OperandStack) (frame : Frame) : OperandStack :=
  { stack with entries := stack.entries.shrink frame.base, base := min stack.base frame.base }

/-- A frame that gives back all it holds hands over its value. -/
theorem leave_of_released {limits : Limits} {h between after : Heap} {stack : OperandStack}
    {frame : Frame} {callers : CallStack} {output : Array String} {counts : ExecutionCounts}
    (slotsReleased : Heap.releaseEach frame.locals.slots.toList h = .ok () between)
    (operandsReleased : Heap.releaseEach (stack.above frame.base) between = .ok () after)
    (value : Option Value) :
    leave value ⟨limits, h, stack, callers.push frame, output, counts⟩ =
      handOver frame value ⟨limits, after, below stack frame, callers, output, counts⟩ := by
  have popped : popFrame ⟨limits, h, stack, callers.push frame, output, counts⟩ =
      .ok frame ⟨limits, h, stack, callers, output, counts⟩ := rfl
  have released : attempt (both (onHeap (Heap.releaseEach frame.locals.slots.toList))
      (onStack (OperandStack.truncate frame.base))) ⟨limits, h, stack, callers, output, counts⟩ =
      .ok (.ok ()) ⟨limits, after, below stack frame, callers, output, counts⟩ := by
    simp only [attempt, both, onHeap, slotsReleased, onStack, OperandStack.truncate, onRight,
      operandsReleased, below]
  exact (bind_of_ok popped _).trans (bind_of_ok released _)

/-- A frame can give back all it holds: its slots first, and then its operands. -/
theorem frame_released {limits : Limits} {h : Heap} {stack : OperandStack} {frame : Frame}
    {callers : CallStack} {output : Array String} {counts : ExecutionCounts} {inHand : List Value}
    (balanced : h.Balanced
      (inHand ++ held ⟨limits, h, stack, callers.push frame, output, counts⟩)) :
    ∃ between after, Heap.releaseEach frame.locals.slots.toList h = .ok () between ∧
      Heap.releaseEach (stack.above frame.base) between = .ok () after ∧
      after.Balanced (inHand ++
        held ⟨limits, after, below stack frame, callers, output, counts⟩) := by
  let slots := callers.frames.flatMap fun f => f.locals.slots.toList
  have parted : h.Balanced (frame.locals.slots.toList ++
      (stack.above frame.base ++ (inHand ++ slots ++ (below stack frame).entries.toList))) := by
    refine balanced.of_count_eq fun id => ?_
    have entries : stack.entries.toList.count (.array id) =
        (stack.entries.toList.take frame.base).count (.array id) +
          (stack.entries.toList.drop frame.base).count (.array id) := by
      rw [← List.count_append, List.take_append_drop]
    simp only [List.count_append, count_held, frames, CallStack.frames_push, List.flatMap_cons,
      OperandStack.above_eq, List.count_reverse, below, Array.toList_shrink, slots, entries]
    omega
  obtain ⟨between, slotsReleased, balance⟩ := parted.releaseEach
  obtain ⟨after, operandsReleased, balance⟩ := balance.releaseEach
  refine ⟨between, after, slotsReleased, operandsReleased, balance.of_count_eq fun id => ?_⟩
  simp only [List.count_append, count_held, frames, slots]
  omega

/-- Leaving a frame hands its value to the caller, or gives it back. -/
theorem leave_accounts (value : Option Value) : Accounts value.toList (leave value) := by
  rintro ⟨limits, h, stack, calls, output, counts⟩ balanced
  obtain ⟨ready, balanced⟩ := balanced_iff.mp balanced
  obtain rfl | ⟨frame, callers, rfl⟩ := calls.eq_empty_or_push
  · exact absurd rfl ready
  obtain ⟨between, after, slotsReleased, operandsReleased, balance⟩ := frame_released balanced
  rw [leave_of_released slotsReleased operandsReleased]
  exact handOver_balanced balance

/-- The arguments move from the operands to the slots, so nothing changes hands. -/
theorem enter_keeps {m : Machine} (balanced : m.heap.Balanced m.held) (index : Nat) (f : Function)
    (returnAddress : Option Nat) :
    match enter index f returnAddress m with
    | .ok _ after => Holder.Balanced after []
    | .error fault after => after.heap.Balanced after.held ∧ fault.blamesCounting = false := by
  unfold enter
  by_cases deep : m.limits.callDepth ≤ m.depth
  · rw [if_pos deep]
    exact ⟨balanced, rfl⟩
  by_cases few : m.stack.visible < f.arity
  · rw [if_neg deep, if_pos few]
    exact ⟨balanced, rfl⟩
  rw [if_neg deep, if_neg few]
  refine balanced_iff.mpr ⟨List.cons_ne_nil _ _, balanced.of_count_eq fun id => ?_⟩
  have parted := congrArg (List.count (Value.array id))
    (List.take_append_drop (m.stack.size - f.arity) m.stack.entries.toList)
  have blank (count : Nat) : (List.replicate count Value.null).count (.array id) = 0 :=
    List.count_eq_zero.mpr fun member => by cases List.eq_of_mem_replicate member
  simp only [List.count_append, List.count_nil, count_held, frames, CallStack.frames_push,
    List.flatMap_cons, Frame.withArguments, Frame.make, Array.toList_append,
    OperandStack.toList_extract, Array.toList_replicate, Array.toList_shrink, blank] at parted ⊢
  omega

end Frames

/-- Handing control over takes what an instruction has left in hand. -/
theorem proceed_accounts (p : Program) (address : Nat) (transfer : Transfer) :
    Accounts transfer.inHand (proceed p address transfer) := by
  unfold proceed
  cases transfer with
  | next => exact Accounts.bind (goto_conserves _) fun _ _ => Accounts.pure rfl
  | goto target => exact Accounts.bind (goto_conserves target) fun _ _ => Accounts.pure rfl
  | leave value => exact leave_accounts value
  | call index =>
    dsimp only
    split
    next => exact Accounts.pure rfl
    next => exact Accounts.throw rfl

/-- An instruction accounts for every reference that it touches. -/
theorem advance_accounts (p : Program) : Accounts [] (advance p) := by
  refine Accounts.bind (top_conserves _) fun (pc, code) _ => ?_
  dsimp only
  split
  next => exact leave_accounts none
  next record _ =>
    split
    next => exact Accounts.throw rfl
    next i _ =>
      refine Accounts.bind (countInstruction_conserves) fun _ _ => ?_
      exact Accounts.bind (perform_conserves p i pc code.instructionCount) fun transfer _ =>
        proceed_accounts p pc transfer

section Runs

variable {σ : Type} (p : Program) (profiler : Profiler σ)

/-- The balance at any point of an execution. -/
def StatusBalanced : Status σ (Option Value) → Prop
  | .running _ m => Holder.Balanced m []
  | .finished answer _ m => m.heap.Balanced (answer.toList ++ m.held)
  | .faulted fault _ m => m.heap.Balanced m.held ∧ fault.blamesCounting = false

/-- One instruction keeps the balance, whatever version the profiler offers. -/
theorem step_keeps (s : σ) {m : Machine} (balanced : Holder.Balanced m []) :
    StatusBalanced (step p profiler s m) := by
  have result := advance_accounts p m balanced
  unfold step
  cases advanced : advance p m with
  | error fault after =>
    rw [advanced] at result
    exact result
  | ok progress after =>
    rw [advanced] at result
    obtain ⟨balance, frames⟩ := result
    cases progress with
    | running => exact ⟨frames rfl, balance⟩
    | finished value => exact balance
    | calling index callee returnAddress =>
      have entered := enter_keeps balance index
        (profiler.version index callee (profiler.recordCall index callee s)) (some returnAddress)
      dsimp only
      split
      next found =>
        rw [found] at entered
        exact entered
      next found =>
        rw [found] at entered
        exact entered

/-- Any number of instructions keeps the balance. -/
theorem run_keeps (fuel : Nat) (s : σ) {m : Machine} (balanced : Holder.Balanced m []) :
    StatusBalanced (run p profiler fuel s m) := by
  induction fuel generalizing s m with
  | zero => exact balanced
  | succ fuel ih =>
    have once := step_keeps p profiler s balanced
    unfold run
    cases stepped : step p profiler s m with
    | running s after =>
      rw [stepped] at once
      exact ih s once
    | finished answer s after =>
      rw [stepped] at once
      exact once
    | faulted fault s after =>
      rw [stepped] at once
      exact once

end Runs

section Calls

/-- Unwinding gives back everything that the machine holds and nothing else. -/
theorem unwind_keeps {m : Machine} {inHand : List Value}
    (balanced : m.heap.Balanced (inHand ++ m.held)) : m.unwind.heap.Balanced inHand := by
  obtain ⟨after, released, balance⟩ := (balanced.of_perm List.perm_append_comm).releaseEach
  have heap : m.unwind.heap = after := by simp only [unwind, Action.after, released]
  rw [heap]
  exact balance

/-- A machine that has been unwound holds nothing. -/
theorem held_unwind (m : Machine) : m.unwind.held = [] := by
  simp [held, unwind, frames, OperandStack.above_eq]

/-- Giving back values in hand, one after another. -/
theorem forM_release {values : List Value} {m : Machine} {others : List Value}
    (balanced : m.heap.Balanced (values ++ others)) :
    ∃ after, values.forM release m = .ok () { m with heap := after } ∧ after.Balanced others := by
  induction values generalizing m with
  | nil => exact ⟨m.heap, rfl, balanced⟩
  | cons value rest ih =>
    obtain ⟨between, first, balance⟩ := balanced.releaseValue
    obtain ⟨after, others, balance⟩ := ih (m := { m with heap := between }) balance
    refine ⟨after, ?_, balance⟩
    change (release value >>= fun _ => rest.forM release) m = _
    have released : release value m = .ok () { m with heap := between } := by
      simp only [release, onHeap, first]
    rw [bind_apply, released]
    exact others

/-- Pushing values for which there is room. -/
theorem forM_push {values : List Value} {m : Machine}
    (room : m.stack.entries.size + values.length ≤ m.stack.limit) :
    (values.forM fun value => onStack (onLeft (OperandStack.push value))) m =
      .ok () { m with stack.entries := m.stack.entries ++ values.toArray } := by
  induction values generalizing m with
  | nil => simp
  | cons value rest ih =>
    rw [List.length_cons] at room
    have first : m.stack.entries.size < m.stack.limit := by omega
    change (onStack (onLeft (OperandStack.push value)) >>= fun _ => rest.forM _) m = _
    have pushed : onStack (onLeft (OperandStack.push value)) m =
        .ok () { m with stack.entries := m.stack.entries.push value } := by
      simp only [onStack, onLeft, OperandStack.push, first, if_true]
    rw [bind_apply, pushed]
    dsimp only
    rw [ih (by simp only [Array.size_push]; omega)]
    simp

variable {σ : Type} (p : Program) (profiler : Profiler σ)

/-- Arguments for which there is no room are given back before the fault. -/
theorem start_crowded (s : σ) (index : Nat) {values : List Value} {m : Machine}
    (crowded : m.stack.limit < values.length) :
    start p profiler s index values m =
      (values.forM release >>= fun _ => throw (.stackOverflow m.stack.limit)) m := by
  have limit : Action.ofExcept (fun m : Machine => .ok m.stack.limit) m =
      .ok m.stack.limit m := rfl
  unfold start
  rw [bind_of_ok limit, if_pos crowded]
  rfl

/-- Starting on an unwound machine takes over the references of the arguments. -/
theorem start_keeps (s : σ) (index : Nat) {values : List Value} {m : Machine}
    (balanced : m.heap.Balanced values) (idle : m.frames = []) (empty : m.stack.entries = #[]) :
    match start p profiler s index values m with
    | .ok _ after => Holder.Balanced after []
    | .error fault after => after.heap.Balanced after.held ∧ fault.blamesCounting = false := by
  have unheld : m.held = [] := by simp [held, idle, OperandStack.above_eq, empty]
  by_cases many : m.stack.limit < values.length
  · have given : m.heap.Balanced (values ++ []) := by rwa [List.append_nil]
    obtain ⟨after, released, balance⟩ := forM_release given
    rw [start_crowded p profiler s index many, bind_of_ok released]
    refine ⟨?_, rfl⟩
    change after.Balanced m.held
    rwa [unheld]
  · unfold start
    simp only [bind_apply, Action.ofExcept]
    rw [if_neg many]
    simp only [bind_apply]
    rw [forM_push (by simp only [empty, Array.size_empty]; omega)]
    have pushed : m.heap.Balanced
        (held { m with stack.entries := m.stack.entries ++ values.toArray }) := by
      refine balanced.of_count_eq fun id => ?_
      simp only [count_held, frames] at idle ⊢
      simp [idle, empty]
    dsimp only
    cases p.functions[index]? with
    | none => exact ⟨pushed, rfl⟩
    | some f => exact enter_keeps pushed index (profiler.version index f s) none

/-- Where a call of a function stands after a number of instructions. Nothing has been unwound
yet, and an answer has not been handed to the host. -/
def underway [Numbering] (fuel : Nat) (index : Nat) (arguments : List HostValue) (s : σ)
    (m : Machine) : Status σ (Option Value) :=
  let (values, heap) := m.heap.importAll arguments
  match start p profiler s index values (unwind { m with heap }) with
  | .error fault m => .faulted fault s m
  | .ok _ m => run p profiler fuel s m

/-- A call that is not admitted leaves everything as it is. -/
theorem call_of_refused [Numbering] {name : String} {arguments : List HostValue} {fault : Fault}
    (refused : entryOf p name arguments = .error fault) (fuel : Nat) (s : σ) (m : Machine) :
    call p profiler fuel name arguments s m = .faulted fault s m := by
  unfold call
  rw [refused]

/-- What the host sees of a call is what its last state leads to. -/
theorem call_eq_underway [Numbering] {name : String} {arguments : List HostValue} {index : Nat}
    (admitted : entryOf p name arguments = .ok index) (fuel : Nat) (s : σ) (m : Machine) :
    call p profiler fuel name arguments s m =
      match underway p profiler fuel index arguments s m with
      | .running s m => .running s m
      | .faulted fault s m => .faulted fault s m.unwind
      | .finished none s m => .finished none s m
      | .finished (some value) s m =>
        match onHeap (Heap.exportHost value) m with
        | .ok answer m => .finished answer s m
        | .error fault m => .faulted fault s m := by
  unfold call underway execute
  rw [admitted]
  dsimp only
  cases start p profiler s index (m.heap.importAll arguments).1
      (unwind { m with heap := (m.heap.importAll arguments).2 }) with
  | error fault after => rfl
  | ok _ after =>
    dsimp only
    cases run p profiler fuel s after with
    | running s after => rfl
    | faulted fault s after => rfl
    | finished answer s after => cases answer <;> rfl

/-- A call that is not admitted blames its name or its arguments. -/
theorem blamesCounting_of_entryOf {p : Program} {name : String} {arguments : List HostValue}
    {fault : Fault} (refused : entryOf p name arguments = .error fault) :
    fault.blamesCounting = false := by
  unfold entryOf at refused
  split at refused
  next => cases refused; rfl
  next =>
    split at refused
    next => cases refused; rfl
    next f _ =>
      have checked : f.checkArguments arguments = .error fault := by
        cases outcome : f.checkArguments arguments <;> rw [outcome] at refused <;> cases refused
        rfl
      unfold Function.checkArguments at checked
      split at checked
      next => cases checked; rfl
      split at checked
      next => cases checked; rfl
      split at checked <;> cases checked
      rfl

/-- Every state of a call is balanced. -/
theorem underway_keeps (fuel index : Nat) (arguments : List HostValue) (s : σ) {m : Machine}
    (balanced : m.heap.Balanced m.held) :
    StatusBalanced (underway p profiler fuel index arguments s m) := by
  have imported := unwind_keeps (m := { m with heap := (m.heap.importAll arguments).2 })
    (balanced.importAll arguments)
  have started := start_keeps p profiler s index imported rfl rfl
  unfold underway
  dsimp only
  cases ran : start p profiler s index (m.heap.importAll arguments).1
      (unwind { m with heap := (m.heap.importAll arguments).2 }) with
  | error fault after =>
    rw [ran] at started
    exact started
  | ok _ after =>
    rw [ran] at started
    exact run_keeps p profiler fuel s started

/-- A call leaves a balanced machine behind, and no fault that it ends with blames the counting. -/
theorem call_keeps (fuel : Nat) (name : String) (arguments : List HostValue) (s : σ) {m : Machine}
    (balanced : m.heap.Balanced m.held) :
    (call p profiler fuel name arguments s m).machine.heap.Balanced
        (call p profiler fuel name arguments s m).machine.held ∧
      ∀ fault, (call p profiler fuel name arguments s m).outcome? = some (.error fault) →
        fault.blamesCounting = false := by
  cases admitted : entryOf p name arguments with
  | error fault =>
    rw [call_of_refused p profiler admitted]
    refine ⟨balanced, ?_⟩
    intro fault ended
    cases ended
    exact blamesCounting_of_entryOf admitted
  | ok index =>
    rw [call_eq_underway p profiler admitted]
    have reached := underway_keeps p profiler fuel index arguments s balanced
    cases status : underway p profiler fuel index arguments s m with
    | running s after =>
      rw [status] at reached
      refine ⟨reached.2, ?_⟩
      intro fault ended
      cases ended
    | faulted fault s after =>
      rw [status] at reached
      obtain ⟨balance, spared⟩ := reached
      refine ⟨?_, ?_⟩
      · change after.unwind.heap.Balanced after.unwind.held
        rw [held_unwind]
        exact unwind_keeps balance
      · intro fault ended
        cases ended
        exact spared
    | finished answer s after =>
      rw [status] at reached
      cases answer with
      | none =>
        refine ⟨reached, ?_⟩
        intro fault ended
        cases ended
      | some value =>
        obtain ⟨answer, heap, exported, balance⟩ := Heap.Balanced.exportHost reached
        have handedOver : onHeap (Heap.exportHost value) after =
            .ok answer { after with heap := heap } := by
          simp only [onHeap, exported]
        dsimp only
        rw [handedOver]
        refine ⟨balance, ?_⟩
        intro fault ended
        cases ended

end Calls

/-- The machines that a host can have: a new one, and what calls that have ended and taking the
output have made of it. The calls may be of any programs, with any surroundings. -/
inductive Hosted [Numbering] : Machine → Prop where
  | created (limits : Limits) : Hosted (create limits)
  | called {σ : Type} {m : Machine} (earlier : Hosted m) (p : Program) (profiler : Profiler σ)
      (fuel : Nat) (name : String) (arguments : List HostValue) (s : σ)
      {outcome : Except Fault (Option HostValue)}
      (ended : (call p profiler fuel name arguments s m).outcome? = some outcome) :
      Hosted (call p profiler fuel name arguments s m).machine
  | outputTaken {m : Machine} (earlier : Hosted m) : Hosted m.takeOutput.2

/-- Between two calls a machine is balanced. -/
theorem Hosted.balanced {m : Machine} (hosted : Hosted m) : m.heap.Balanced m.held := by
  induction hosted with
  | created limits => exact Heap.balanced_empty
  | called _ p profiler fuel name arguments s _ ih =>
    exact (call_keeps p profiler fuel name arguments s ih).1
  | outputTaken _ ih => exact ih

/-- How often an array stands in the slots of the frames and among the operands. -/
def holders (m : Machine) (id : ArrayId) : Nat :=
  (m.frames.map fun frame => frame.locals.slots.toList.count (.array id)).sum +
    m.stack.entries.toList.count (.array id)

/-- The references that a machine holds to an array are those of its holders. -/
theorem count_held_eq_holders (m : Machine) (id : ArrayId) :
    m.held.count (.array id) = m.holders id := by
  rw [count_held, List.count_flatMap]
  rfl

/-- The references are exact: every live array is counted as often as it is held and is held at
all, and whatever is held is live. -/
structure References (m : Machine) (inHand : List Value) : Prop where
  counted : ∀ id cell, m.heap.find? id = some cell →
    cell.references = m.holders id + inHand.count (.array id)
  live : ∀ id, 0 < m.holders id + inHand.count (.array id) → (m.heap.find? id).isSome
  noneIdle : ∀ id, (m.heap.find? id).isSome → 0 < m.holders id + inHand.count (.array id)

/-- A balanced machine has exact references. -/
theorem references_of_balanced {m : Machine} {inHand : List Value}
    (balanced : m.heap.Balanced (inHand ++ m.held)) : m.References inHand := by
  have total (id : ArrayId) : (inHand ++ m.held).count (.array id) =
      m.holders id + inHand.count (.array id) := by
    rw [List.count_append, count_held_eq_holders, Nat.add_comm]
  constructor
  case counted =>
    intro id cell found
    rw [← total]
    exact (balanced.counted found).1
  case live =>
    intro id positive
    rw [← total] at positive
    obtain ⟨cell, found⟩ := balanced.live (List.count_pos_iff.mp positive)
    exact Option.isSome_of_mem found
  case noneIdle =>
    intro id found
    obtain ⟨cell, found⟩ := Option.isSome_iff_exists.mp found
    obtain ⟨counted, positive⟩ := balanced.counted found
    rw [← total, ← counted]
    exact positive

/-- Exact references at any point of an execution. A fault, before anything is unwound, finds
them exact too, and does not blame the counting. -/
def StatusReferences {σ : Type} : Status σ (Option Value) → Prop
  | .running _ m => m.References []
  | .finished answer _ m => m.References answer.toList
  | .faulted fault _ m => m.References [] ∧ fault.blamesCounting = false

/-- Every state of a balanced call has exact references. -/
theorem statusReferences_of_balanced {σ : Type} {status : Status σ (Option Value)}
    (balanced : StatusBalanced status) : StatusReferences status := by
  cases status with
  | running s after => exact references_of_balanced balanced.2
  | finished answer s after => exact references_of_balanced balanced
  | faulted fault s after => exact ⟨references_of_balanced balanced.1, balanced.2⟩

namespace Narrow

variable {σ : Type}

/-- Where a call of a function stands where ids have 32 bits for the number of a slot. -/
abbrev underway (p : Program) (profiler : Profiler σ) := @Machine.underway σ p profiler .low32

/-- The machines that a host can have where ids have 32 bits for the number of a slot. -/
abbrev Hosted := @Machine.Hosted .low32

end Narrow

section Narrowing

variable {σ : Type} {p : Program} {profiler : Profiler σ}

/-- Any state of a call. -/
theorem underway_narrows (p : Program) (profiler : Profiler σ) (fuel index : Nat)
    (arguments : List HostValue) (t : σ) (m : Machine) :
    StatusNarrows m (Narrow.underway p profiler fuel index arguments t m)
      (underway p profiler fuel index arguments t m) := by
  let imported : Machine := { m with heap := (Heap.Narrow.importAll m.heap arguments).2 }
  have enters : Grows m imported := @Heap.size_le_importAll .low32 m.heap arguments
  have unwinds : Grows imported imported.unwind := (unwind_evolves imported).size_le
  have starts := start_narrows p profiler fuel t index (Heap.Narrow.importAll m.heap arguments).1
    imported.unwind
  refine ⟨enters.trans (unwinds.trans starts.grows), fun room => ?_⟩
  have same := Heap.importAll_narrow (Nat.le_trans (unwinds.trans starts.grows) room)
  rw [underway, ← same]
  exact starts.agrees room

/-- What the host makes of the last state of a call. A machine that has faulted is unwound, and an
answer is copied out. -/
def delivered : Status σ (Option Value) → Status σ (Option HostValue)
  | .running s m => .running s m
  | .faulted fault s m => .faulted fault s m.unwind
  | .finished none s m => .finished none s m
  | .finished (some value) s m =>
    match onHeap (Heap.exportHost value) m with
    | .ok answer m => .finished answer s m
    | .error fault m => .faulted fault s m

/-- A call that is admitted delivers what comes of its execution. -/
theorem call_eq_delivered [Numbering] {name : String} {arguments : List HostValue} {index : Nat}
    (admitted : entryOf p name arguments = .ok index) (fuel : Nat) (t : σ) (m : Machine) :
    call p profiler fuel name arguments t m =
      delivered (underway p profiler fuel index arguments t m) :=
  call_eq_underway p profiler admitted fuel t m

/-- Neither unwinding nor copying loses a slot. -/
theorem delivered_grows (status : Status σ (Option Value)) :
    Grows status.machine (delivered status).machine := by
  match status with
  | .running _ m | .finished none _ m => exact Nat.le_refl _
  | .faulted _ _ m => exact (unwind_evolves m).size_le
  | .finished (some value) _ m =>
    have copies := grows_of_takes (takes_grows (onHeap_takes (Heap.exportHost_takes value))) m
    unfold Action.after at copies
    unfold delivered
    dsimp only
    cases ran : onHeap (Heap.exportHost value) m with
    | ok answer after => rwa [ran] at copies
    | error fault after => rwa [ran] at copies

/-- A call. -/
theorem call_narrows (p : Program) (profiler : Profiler σ) (fuel : Nat) (name : String)
    (arguments : List HostValue) (t : σ) (m : Machine) :
    StatusNarrows m (Narrow.call p profiler fuel name arguments t m)
      (call p profiler fuel name arguments t m) := by
  cases admitted : entryOf p name arguments with
  | error fault =>
    have narrow := @call_of_refused σ p profiler .low32 _ _ _ admitted fuel t m
    have wide := call_of_refused p profiler admitted fuel t m
    rw [wide, Narrow.call, narrow]
    exact ⟨Nat.le_refl _, fun _ => rfl⟩
  | ok index =>
    have narrow := @call_eq_delivered σ p profiler .low32 _ _ _ admitted fuel t m
    rw [Narrow.call, narrow, call_eq_delivered admitted]
    exact (underway_narrows p profiler fuel index arguments t m).map delivered_grows

/-- A machine that a host can have with at most `2 ^ 32` slots is one that it can have where ids
keep the whole number of a slot. -/
theorem Narrow.Hosted.whole {m : Machine} (hosted : Narrow.Hosted m)
    (room : m.heap.slots.size ≤ UInt32.size) : Machine.Hosted m := by
  induction hosted with
  | created limits => exact .created limits
  | @called σ m earlier p profiler fuel name arguments s outcome ended ih =>
    have narrows := call_narrows p profiler fuel name arguments s m
    have same := narrows.agrees room
    unfold Narrow.call at same
    rw [same] at ended ⊢
    exact .called (ih (Nat.le_trans narrows.grows room)) p profiler fuel name arguments s ended
  | outputTaken _ ih => exact .outputTaken (ih room)

end Narrowing

/-- References are exact after any number of instructions of any call on any machine that a host
can have, and no call ends with a fault that blames the counting. Ids have 32 bits for the number of
a slot, so that the heap may have `2 ^ 32` slots by then. -/
theorem references_exact {σ : Type} {m : Machine} (hosted : Narrow.Hosted m) (p : Program)
    (profiler : Profiler σ) (name : String) (arguments : List HostValue) (s : σ) :
    (∀ index, entryOf p name arguments = .ok index → ∀ fuel,
      (Narrow.underway p profiler fuel index arguments s m).machine.heap.slots.size ≤ UInt32.size →
        StatusReferences (Narrow.underway p profiler fuel index arguments s m)) ∧
    ∀ fuel fault,
      (Narrow.call p profiler fuel name arguments s m).machine.heap.slots.size ≤ UInt32.size →
        (Narrow.call p profiler fuel name arguments s m).outcome? = some (.error fault) →
          fault.blamesCounting = false := by
  constructor
  · intro index admitted fuel room
    have narrows := underway_narrows p profiler fuel index arguments s m
    have whole := hosted.whole (Nat.le_trans narrows.grows room)
    rw [narrows.agrees room]
    exact statusReferences_of_balanced
      (underway_keeps p profiler fuel index arguments s whole.balanced)
  · intro fuel fault room
    have narrows := call_narrows p profiler fuel name arguments s m
    have whole := hosted.whole (Nat.le_trans narrows.grows room)
    rw [narrows.agrees room]
    exact (call_keeps p profiler fuel name arguments s whole.balanced).2 fault

/-- A program that answers with the array that it is passed, once another function has read the
first element of it. -/
def relayProgram : Program where
  intConstants := #[0]
  floatConstants := #[]
  functions := #[
    .make "main" [⟨"numbers", .array .int⟩] (.array .int) 1
      (.ofList [.make .loadLocal 0, .make .loadLocal 0, .make .call 1, .make .pop 0,
        .make .ret 0]),
    .make "first" [⟨"numbers", .array .int⟩] .int 1
      (.ofList [.make .loadLocal 0, .make .pushInt 0, .make .arrayLoad 0, .make .ret 0])]
  entry := "main"

/-- A call with an array that has no first element, on a machine that has been called before. While
the element is read four places hold the array: a slot and an operand of either call. -/
theorem references_exact_relayProgram :
    ∃ m between fault, Narrow.Hosted m ∧
      entryOf relayProgram "main" [.array (.ints #[])] = .ok 0 ∧
      between = Narrow.underway relayProgram Profiler.none 4 0 [.array (.ints #[])] () m ∧
      between.machine.heap.find? ⟨0, 1⟩ = some ⟨.ints #[], 4⟩ ∧ StatusReferences between ∧
      (Narrow.call relayProgram Profiler.none 9 "main" [.array (.ints #[])] () m).outcome? =
        some (.error fault) ∧ fault.blamesCounting = false := by
  let m := (Narrow.call relayProgram Profiler.none 9 "main" [.array (.ints #[5])] ()
    (create {})).machine
  have ended : (Narrow.call relayProgram Profiler.none 9 "main" [.array (.ints #[5])] ()
      (create {})).outcome? = some (.ok (some (.array (.ints #[5])))) := by decide +kernel
  have hosted : Narrow.Hosted m :=
    @Hosted.called .low32 _ _ (@Hosted.created .low32 {}) relayProgram _ 9 "main" _ () _ ended
  have admitted : entryOf relayProgram "main" [.array (.ints #[])] = .ok 0 := by decide +kernel
  have counted : (Narrow.underway relayProgram Profiler.none 4 0 [.array (.ints #[])]
      () m).machine.heap.find? ⟨0, 1⟩ = some ⟨.ints #[], 4⟩ := by decide +kernel
  have room : (Narrow.underway relayProgram Profiler.none 4 0 [.array (.ints #[])]
      () m).machine.heap.slots.size ≤ UInt32.size := by decide +kernel
  have faulted : (Narrow.call relayProgram Profiler.none 9 "main" [.array (.ints #[])] ()
      m).outcome? = some (.error (.arrayIndexOutOfBounds 0 0)) := by decide +kernel
  have few : (Narrow.call relayProgram Profiler.none 9 "main" [.array (.ints #[])] ()
      m).machine.heap.slots.size ≤ UInt32.size := by decide +kernel
  have exact := references_exact hosted relayProgram Profiler.none "main" [.array (.ints #[])] ()
  exact ⟨m, _, _, hosted, admitted, rfl, counted, exact.1 0 admitted 4 room, faulted,
    exact.2 9 _ few faulted⟩

end Machine

end HotPath
