import HotPath.Machine.Host
import HotPath.Proofs.Machine.Effects

/-!
# Machines whose ids have 32 bits

Where ids have 32 bits for the number of a slot, a machine does what it does where they keep the
whole number, as long as its heap has at most `2 ^ 32` slots. It is enough to count them when
something has ended, since no slot is ever lost. `Narrows` says both of an action, and composes;
`step_narrow`, `run_narrow` and `call_narrow` are what follows for a step, a run and a call.
-/

namespace HotPath

/-- An elementary change loses no slot. -/
theorem Heap.Change.size_le {h after : Heap} (changed : h.Change after) :
    h.slots.size ≤ after.slots.size := by
  cases changed with
  | allocated contents => exact h.size_le_allocate contents
  | modified found change => exact Nat.le_of_eq (Array.size_modify ..).symm
  | vacated found => exact Nat.le_of_eq (Array.size_modify ..).symm

/-- Nor does any number of them. -/
theorem Heap.Evolves.size_le {h after : Heap} (changes : h.Evolves after) :
    h.slots.size ≤ after.slots.size := by
  induction changes with
  | refl => exact Nat.le_refl _
  | tail _ changed ih => exact Nat.le_trans ih changed.size_le

namespace Machine

open HotPath.Action

/-- No slot of the heap has been lost. -/
def Grows (m after : Machine) : Prop := m.heap.slots.size ≤ after.heap.slots.size

/-- Growing is kept along the way. -/
theorem Grows.trans {first second third : Machine} (early : Grows first second)
    (late : Grows second third) : Grows first third := Nat.le_trans early late

/-- The first action does what the second one does, if there are at most `2 ^ 32` slots when it has
ended. It loses none. -/
structure Narrows {α : Type} (narrow wide : Action Machine α) : Prop where
  grows : Takes Grows narrow
  agrees : ∀ m, (narrow.after m).heap.slots.size ≤ UInt32.size → narrow m = wide m

section Growth

variable {α : Type} {action : Action Machine α}

/-- An action that loses no slot on the way has lost none at the end. -/
theorem grows_of_takes (takes : Takes Grows action) (m : Machine) : Grows m (action.after m) := by
  have changes := takes m
  generalize action.after m = after at changes
  induction changes with
  | refl => exact Nat.le_refl _
  | tail _ grows ih => exact ih.trans grows

/-- Effects lose no slot. -/
theorem takes_grows (takes : Takes Effect action) : Takes Grows action :=
  fun m => .single (evolves_of_effects (takes m)).size_le

/-- Nor does an action that leaves the heap alone. -/
theorem takes_grows_of_heap (same : ∀ m, (action.after m).heap = m.heap) : Takes Grows action :=
  fun m => .single (Nat.le_of_eq (congrArg (fun h : Heap => h.slots.size) (same m)).symm)

end Growth

namespace Narrows

variable {α β : Type}

/-- An action that has nothing to do with ids. -/
theorem same {action : Action Machine α} (grows : Takes Grows action) : Narrows action action :=
  ⟨grows, fun _ _ => rfl⟩

/-- If an action and what follows it do the same in narrow and wide numbers, so do both in a row. -/
theorem bind {narrow wide : Action Machine α} {rest others : α → Action Machine β}
    (first : Narrows narrow wide) (second : ∀ answer, Narrows (rest answer) (others answer)) :
    Narrows (narrow >>= rest) (wide >>= others) where
  grows := first.grows.bind fun answer => (second answer).grows
  agrees := by
    intro m room
    have early :
        (narrow.after m).heap.slots.size ≤ ((narrow >>= rest).after m).heap.slots.size := by
      unfold Action.after
      rw [bind_apply]
      cases ran : narrow m with
      | ok answer between => exact grows_of_takes (second answer).grows between
      | error fault between => exact Nat.le_refl _
    have agrees := first.agrees m (Nat.le_trans early room)
    unfold Action.after at room
    rw [bind_apply] at room ⊢
    rw [bind_apply, ← agrees]
    cases ran : narrow m with
    | ok answer between =>
      rw [ran] at room
      exact (second answer).agrees between room
    | error fault between => rfl

end Narrows

section Instructions

/-- An array that is put on the heap gets the same id. -/
theorem allocate_narrows (contents : Elements) :
    Narrows (onHeap fun h => let (id, h) := Heap.Narrow.allocate h contents; .ok id h)
      (onHeap fun h => let (id, h) := h.allocate contents; .ok id h) where
  grows := takes_grows (onHeap_takes (@allocate_takes .low32 contents))
  agrees := by
    intro m room
    have same : Heap.Narrow.allocate m.heap contents = m.heap.allocate contents :=
      Heap.allocate_narrow room
    simp only [onHeap, same]

/-- Making an array does the same in 32 bits as long as there are slots for it. -/
theorem newArray_narrows (tag : Nat) : Narrows (@newArray .low32 tag) (newArray tag) := by
  unfold newArray
  split
  next => exact .same (.throw _)
  next type _ =>
    refine .bind (.same (takes_grows popInt_takes)) fun requested => ?_
    refine .bind (.same (.ofExcept _)) fun length => ?_
    exact .bind (allocate_narrows _) fun id => .same (takes_grows (push_takes (.array id)))

/-- Creating an array is the only instruction that makes an id. -/
theorem perform_narrows (p : Program) (i : Instruction) (address length : Nat) :
    Narrows (@perform .low32 p i address length) (perform p i address length) where
  grows := takes_grows (@perform_takes .low32 p i address length)
  agrees := by
    cases opcode : i.opcode with
    | newArray =>
      have created := (newArray_narrows i.index).bind fun _ =>
        .same (.pure (Transfer.next))
      unfold perform
      rw [opcode]
      exact created.agrees
    | _ =>
      intro m _
      unfold perform
      rw [opcode]

end Instructions

section Control

/-- Dropping operands gives back what they hold, which loses no slot. -/
theorem truncate_grows (height : Nat) : Takes Grows (onStack (OperandStack.truncate height)) := by
  intro m
  have released := Heap.Evolves.size_le (Heap.releaseEach_takes (m.stack.above height) m.heap)
  refine .single ?_
  unfold Grows
  simp only [Action.after, onStack, OperandStack.truncate, onRight] at released ⊢
  cases ran : Heap.releaseEach (m.stack.above height) m.heap with
  | ok _ after => rwa [ran] at released
  | error fault after => rwa [ran] at released

/-- Taking a frame off leaves the heap alone. -/
theorem popFrame_grows : Takes Grows popFrame := by
  refine takes_grows_of_heap fun m => ?_
  obtain ⟨limits, heap, stack, calls, output, counts⟩ := m
  obtain rfl | ⟨frame, callers, rfl⟩ := calls.eq_empty_or_push <;> rfl

/-- Going on in the caller leaves the heap alone. -/
theorem resumeCaller_grows (frame : Frame) : Takes Grows (resumeCaller frame) := by
  refine takes_grows_of_heap fun m => ?_
  obtain ⟨limits, heap, stack, calls, output, counts⟩ := m
  obtain rfl | ⟨caller, callers, rfl⟩ := calls.eq_empty_or_push <;> rfl

/-- Going to an address leaves the heap alone. -/
theorem goto_grows (address : Nat) : Takes Grows (goto address) := by
  refine takes_grows_of_heap fun m => ?_
  obtain ⟨limits, heap, stack, calls, output, counts⟩ := m
  obtain rfl | ⟨frame, callers, rfl⟩ := calls.eq_empty_or_push <;> rfl

/-- Reading the innermost frame leaves the heap alone. -/
theorem top_grows {α : Type} (read : Frame → α) : Takes Grows (top read) := by
  refine takes_grows_of_heap fun m => ?_
  unfold Action.after top
  cases m.frames <;> rfl

/-- Entering a function leaves the heap alone. -/
theorem enter_grows (index : Nat) (f : Function) (returnAddress : Option Nat) :
    Takes Grows (enter index f returnAddress) := by
  refine takes_grows_of_heap fun m => ?_
  unfold Action.after enter
  by_cases deep : m.limits.callDepth ≤ m.depth
  · rw [if_pos deep]
  by_cases few : m.stack.visible < f.arity
  · rw [if_neg deep, if_pos few]
  · rw [if_neg deep, if_neg few]

/-- Handing a value over pushes it, or gives it back where there is no room. -/
theorem handOver_grows (frame : Frame) (value : Option Value) :
    Takes Grows (handOver frame value) := by
  refine (resumeCaller_grows frame).bind fun waits => ?_
  cases waits with
  | false => exact .pure _
  | true =>
    cases value with
    | none => exact .pure _
    | some value => exact (takes_grows (push_takes value)).bind fun _ => .pure _

/-- Leaving a frame gives back references, which takes no slot away. -/
theorem leave_grows (value : Option Value) : Takes Grows (leave value) := by
  refine popFrame_grows.bind fun frame => ?_
  have slots := takes_grows (onHeap_takes (Heap.releaseEach_takes frame.locals.slots.toList))
  refine (slots.both (truncate_grows frame.base)).attempt.bind fun released => ?_
  cases released with
  | ok _ => exact handOver_grows frame value
  | error fault =>
    cases value with
    | none => exact .throw fault
    | some value => exact (takes_grows (release_takes value)).bind fun _ => .throw fault

/-- Handing control over takes no slot away. -/
theorem proceed_grows (p : Program) (address : Nat) (transfer : Transfer) :
    Takes Grows (proceed p address transfer) := by
  cases transfer with
  | next => exact (goto_grows _).bind fun _ => .pure _
  | goto target => exact (goto_grows target).bind fun _ => .pure _
  | leave value => exact leave_grows value
  | call index =>
    unfold proceed
    dsimp only
    split
    next => exact .pure _
    next => exact .throw _

/-- An instruction does the same in 32 bits as long as there are slots for its arrays. -/
theorem advance_narrows (p : Program) : Narrows (@advance .low32 p) (advance p) := by
  refine .bind (.same (top_grows _)) fun (pc, code) => ?_
  dsimp only
  split
  next => exact .same (leave_grows none)
  next record _ =>
    split
    next => exact .same (.throw _)
    next i _ =>
      have counts : Takes Grows countInstruction := takes_grows_of_heap fun _ => rfl
      refine .bind (.same counts) fun _ => .bind (perform_narrows p i pc _) fun transfer => ?_
      exact .same (proceed_grows p pc transfer)

end Control

section Runs

variable {σ : Type} (p : Program) (profiler : Profiler σ)

/-- The status of an execution with ids of 32 bits is the one that it has where they keep
everything, if there are at most `2 ^ 32` slots then. No slot has been lost since the machine. -/
structure StatusNarrows {α : Type} (m : Machine) (narrow wide : Status σ α) : Prop where
  grows : Grows m narrow.machine
  agrees : narrow.machine.heap.slots.size ≤ UInt32.size → narrow = wide

/-- What is made of a status loses no slot either. -/
theorem StatusNarrows.map {α β : Type} {m : Machine} {narrow wide : Status σ α}
    (narrows : StatusNarrows m narrow wide) {make : Status σ α → Status σ β}
    (grows : ∀ status, Grows status.machine (make status).machine) :
    StatusNarrows m (make narrow) (make wide) where
  grows := narrows.grows.trans (grows narrow)
  agrees := fun room => congrArg make (narrows.agrees (Nat.le_trans (grows narrow) room))

/-- Entering a function that is called loses no slot. -/
theorem conclude_grows (t : σ) (result : EStateM.Result Fault Machine Progress) :
    match result with
    | .ok _ m | .error _ m => Grows m (conclude profiler t result).machine := by
  match result with
  | .error fault m | .ok .running m | .ok (.finished _) m => exact Nat.le_refl _
  | .ok (.calling index callee returnAddress) m =>
    let u := profiler.recordCall index callee t
    have enters := grows_of_takes
      (enter_grows index (profiler.version index callee u) (some returnAddress)) m
    unfold Action.after at enters
    unfold conclude
    dsimp only
    cases ran : enter index (profiler.version index callee u) (some returnAddress) m with
    | ok _ after => rwa [ran] at enters
    | error fault after => rwa [ran] at enters

/-- A step does the same in 32 bits as long as there are slots for its arrays. -/
theorem step_narrows (t : σ) (m : Machine) :
    StatusNarrows m (Narrow.step p profiler t m) (step p profiler t m) := by
  have grows := grows_of_takes (advance_narrows p).grows m
  have agrees := (advance_narrows p).agrees m
  have later := conclude_grows profiler t (@advance .low32 p m)
  unfold Narrow.step
  unfold Action.after at grows agrees
  rw [@step_eq_conclude _ _ _ .low32, @step_eq_conclude _ _ _ .whole]
  generalize @advance .low32 p m = result at grows agrees later ⊢
  cases result with
  | ok progress after =>
    exact ⟨grows.trans later, fun room =>
      congrArg (conclude profiler t) (agrees (Nat.le_trans later room))⟩
  | error fault after =>
    exact ⟨grows.trans later, fun room =>
      congrArg (conclude profiler t) (agrees (Nat.le_trans later room))⟩

/-- Any number of steps. -/
theorem run_narrows (fuel : Nat) (t : σ) (m : Machine) :
    StatusNarrows m (Narrow.run p profiler fuel t m) (run p profiler fuel t m) := by
  induction fuel generalizing t m with
  | zero => exact ⟨Nat.le_refl _, fun _ => rfl⟩
  | succ fuel ih =>
    have once := step_narrows p profiler t m
    unfold Narrow.run run
    unfold Narrow.step at once
    cases stepped : @step σ .low32 p profiler t m with
    | running u after =>
      rw [stepped] at once
      have later := ih u after
      refine ⟨once.grows.trans later.grows, fun room => ?_⟩
      rw [← once.agrees (Nat.le_trans later.grows room)]
      exact later.agrees room
    | finished answer u after =>
      rw [stepped] at once
      exact ⟨once.grows, fun room => by rw [← once.agrees room]⟩
    | faulted fault u after =>
      rw [stepped] at once
      exact ⟨once.grows, fun room => by rw [← once.agrees room]⟩

end Runs

section Calls

variable {σ : Type} (p : Program) (profiler : Profiler σ)

/-- Starting a function loses no slot. -/
theorem start_grows (t : σ) (index : Nat) (values : List Value) :
    Takes Grows (start p profiler t index values) := by
  refine (Takes.ofExcept _).bind fun limit => ?_
  have pushes : Takes Grows (values.forM fun value => onStack (onLeft (OperandStack.push value))) :=
    .forM (fun value => takes_grows (onStack_takes (OperandStack.push_takes value))) values
  have releases : Takes Grows (values.forM release) :=
    .forM (fun value => takes_grows (release_takes value)) values
  dsimp only
  split
  next => exact releases.bind fun _ => .throw _
  next =>
    refine pushes.bind fun _ => ?_
    cases p.functions[index]? with
    | none => exact .throw _
    | some f => exact enter_grows index _ none

/-- Starting a function and running it. -/
theorem start_narrows (fuel : Nat) (t : σ) (index : Nat) (values : List Value) (m : Machine) :
    StatusNarrows m
      (match start p profiler t index values m with
        | .error fault m => .faulted fault t m
        | .ok _ m => Narrow.run p profiler fuel t m)
      (match start p profiler t index values m with
        | .error fault m => .faulted fault t m
        | .ok _ m => run p profiler fuel t m) := by
  have starts := grows_of_takes (start_grows p profiler t index values) m
  unfold Action.after at starts
  cases ran : start p profiler t index values m with
  | error fault after =>
    rw [ran] at starts
    exact ⟨starts, fun _ => rfl⟩
  | ok _ after =>
    rw [ran] at starts
    have runs := run_narrows p profiler fuel t after
    exact ⟨Grows.trans starts runs.grows, runs.agrees⟩

end Calls

end Machine

end HotPath
