import HotPath.Proofs.Machine.Effects
import HotPath.Proofs.Machine.Transparency

/-!
# One stack for all calls

All calls in progress share one stack of operands. `Layered` says how it is divided: each
frame has the entries from its own base up to the base of the frame that it has called, and
`Framed` that the base of the stack is that of the innermost frame.

`step_cases` lists what one step of a framed machine can lead to, entering and leaving a
function included. In particular a return finds room for its value.
-/

namespace HotPath

/-- The base of the innermost frame. Where there is no frame it is the ground. -/
def Frame.floor (ground : Nat) : List Frame → Nat
  | [] => ground
  | frame :: _ => frame.base

/-- The frames divide the entries below a height among them; the outermost one stands on the
ground. -/
def Layered (ground : Nat) : Nat → List Frame → Prop
  | height, [] => height = ground
  | height, frame :: callers => frame.base ≤ height ∧ Layered ground frame.base callers

namespace Machine

open HotPath.Action

/-- The operands are divided among the frames, and there are no more of them than there may be. -/
structure Framed (ground : Nat) (m : Machine) : Prop where
  base : m.stack.base = Frame.floor ground m.frames
  layered : Layered ground m.stack.entries.size m.frames
  room : m.stack.entries.size ≤ m.stack.limit

namespace Framed

variable {ground : Nat} {c : Core} {s : Surroundings}

/-- The base of the operands is that of the innermost frame. -/
theorem base_plug (framed : Framed ground (c.plug s)) : c.stack.base = s.frame.base := framed.base

/-- The operands of the innermost frame are above its base. -/
theorem visible (framed : Framed ground (c.plug s)) : c.stack.base ≤ c.stack.entries.size :=
  framed.base ▸ framed.layered.1

/-- Below that base the callers' frames divide the entries. -/
theorem callers (framed : Framed ground (c.plug s)) :
    Layered ground c.stack.base s.callers.frames :=
  framed.base ▸ framed.layered.2

/-- Without frames the operands are those on the ground. -/
theorem grounded {m : Machine} (framed : Framed ground m) (idle : m.frames = []) :
    m.stack.base = ground ∧ m.stack.entries.size = ground := by
  have base := framed.base
  have layered := framed.layered
  rw [idle] at base layered
  exact ⟨base, layered⟩

end Framed

/-- The entries with a value on top, if there is one. -/
def handed (entries : Array Value) (value : Option Value) : Array Value :=
  value.elim entries entries.push

/-- The machine after a return. The caller goes on with the operands that it had, and with the
value on top of them. -/
def resumed (c : Core) (s : Surroundings) (heap : Heap) (caller : Frame) (callers : CallStack)
    (value : Option Value) : Machine :=
  Core.plug
    { limits := c.limits
      heap
      stack :=
        { entries := handed (c.stack.entries.take s.frame.base) value
          base := caller.base
          limit := c.stack.limit }
      locals := caller.locals
      output := c.output }
    { frame := { caller with pc := s.frame.returnAddress.getD caller.pc }
      callers
      counts := s.counts }

/-- The machine after the outermost frame has been left. -/
def vacated (c : Core) (s : Surroundings) (heap : Heap) : Machine where
  limits := c.limits
  heap
  stack :=
    { entries := c.stack.entries.take s.frame.base
      base := s.frame.base
      limit := c.stack.limit }
  calls := .empty
  output := c.output
  counts := s.counts

/-- What leaving a frame can lead to. -/
inductive Leaves (c : Core) (s : Surroundings) (value : Option Value) :
    EStateM.Result Fault Machine Progress → Prop where
  | resumed {caller : Frame} {callers : CallStack} (waiting : s.callers = callers.push caller)
    {heap : Heap} (evolves : c.heap.Evolves heap) :
    Leaves c s value (.ok .running (Machine.resumed c s heap caller callers value))
  | finished (alone : s.callers = .empty) {heap : Heap} (evolves : c.heap.Evolves heap) :
    Leaves c s value (.ok (.finished value) (vacated c s heap))

section Leaving

variable {c : Core} {s : Surroundings}

/-- Without a value nothing is handed over. -/
theorem handed_none (entries : Array Value) : handed entries none = entries := rfl

/-- A value is handed over on top. -/
theorem handed_some (entries : Array Value) (value : Value) :
    handed entries (some value) = entries.push value := rfl

/-- The caller of a frame that has been taken off goes on. -/
theorem handOver_resumes {limits : Limits} {heap : Heap} {stack : OperandStack}
    {frame caller : Frame} {callers : CallStack} {output : Array String}
    {counts : ExecutionCounts} {value : Option Value}
    (room : value.isSome → stack.entries.size < stack.limit) :
    handOver frame value ⟨limits, heap, stack, callers.push caller, output, counts⟩ =
      .ok .running (Core.plug
        ⟨limits, heap, ⟨handed stack.entries value, caller.base, stack.limit⟩, caller.locals,
          output⟩
        ⟨{ caller with pc := frame.returnAddress.getD caller.pc }, callers, counts⟩) := by
  cases value with
  | none => rfl
  | some value =>
    let going : Core := ⟨limits, heap, stack.setBase caller.base, caller.locals, output⟩
    let around : Surroundings :=
      ⟨{ caller with pc := frame.returnAddress.getD caller.pc }, callers, counts⟩
    have finds : going.stack.entries.size < going.stack.limit := room rfl
    have resumes : resumeCaller frame ⟨limits, heap, stack, callers.push caller, output, counts⟩ =
        .ok true (going.plug around) := rfl
    rw [handOver, bind_of_ok resumes, if_pos rfl]
    dsimp only
    rw [bind_of_ok (push_plug finds around)]
    rfl

/-- A frame can always be left, and its value finds room. -/
theorem leave_cases {value : Option Value}
    (balanced : c.heap.Balanced (value.toList ++ (c.plug s).held))
    (base : c.stack.base = s.frame.base) (inside : s.frame.base ≤ c.stack.entries.size)
    (room : value.isSome → s.frame.base < c.stack.limit) :
    Leaves c s value (leave value (c.plug s)) := by
  let frame : Frame := { s.frame with locals := c.locals }
  have holds : c.heap.Balanced (value.toList ++
      held ⟨c.limits, c.heap, c.stack, s.callers.push frame, c.output, s.counts⟩) := balanced
  obtain ⟨between, heap, slotsReleased, operandsReleased, -⟩ := frame_released holds
  have evolves : c.heap.Evolves heap := by
    have early := Heap.releaseEach_takes frame.locals.slots.toList c.heap
    have late := Heap.releaseEach_takes (c.stack.above frame.base) between
    unfold Action.after at early late
    rw [slotsReleased] at early
    rw [operandsReleased] at late
    exact early.trans late
  have dropped : below c.stack frame =
      ⟨c.stack.entries.take s.frame.base, s.frame.base, c.stack.limit⟩ := by
    simp only [below, frame, base, Nat.min_self, Array.shrink_eq_take]
  have left : leave value (c.plug s) = handOver frame value ⟨c.limits, heap,
      ⟨c.stack.entries.take s.frame.base, s.frame.base, c.stack.limit⟩, s.callers, c.output,
      s.counts⟩ :=
    dropped ▸ leave_of_released slotsReleased operandsReleased value
  rw [left]
  obtain alone | ⟨caller, callers, waiting⟩ := s.callers.eq_empty_or_push
  · rw [alone]
    exact .finished alone evolves
  · have finds : value.isSome → (c.stack.entries.take s.frame.base).size < c.stack.limit := by
      intro returns
      rw [Array.take_eq_extract, Array.size_extract]
      have room := room returns
      omega
    rw [waiting, handOver_resumes finds]
    exact .resumed waiting evolves

end Leaving

section Steps

variable {σ : Type} {p : Program} {profiler : Profiler σ}

/-- What a return with a value can lead to. -/
inductive Departure (t : σ) (c : Core) (s : Surroundings) (value : Option Value) :
    Status σ (Option Value) → Prop where
  | resumed {caller : Frame} {callers : CallStack} (waiting : s.callers = callers.push caller)
    {heap : Heap} (evolves : c.heap.Evolves heap) (counts : ExecutionCounts) :
    Departure t c s value
      (.running t (Machine.resumed c { s with counts } heap caller callers value))
  | finished (alone : s.callers = .empty) {heap : Heap} (evolves : c.heap.Evolves heap)
    (counts : ExecutionCounts) :
    Departure t c s value (.finished value t (vacated c { s with counts } heap))

/-- Everything that a step can lead to. -/
inductive Steps (p : Program) (profiler : Profiler σ) (t : σ) (c : Core) (s : Surroundings) :
    Status σ (Option Value) → Prop where
  | stayed {after : Core} (follows : c.Follows after) (address : Nat) :
    Steps p profiler t c s (.running t (after.plug ((s.counted 1).goto address)))
  | failed {after : Core} (follows : c.Follows after) (fault : Fault) (u : σ) (count : Nat) :
    Steps p profiler t c s (.faulted fault u (after.plug (s.counted count)))
  | entered {i : Instruction} {callee : Function}
    (here : s.frame.function.code.Has s.frame.pc i) (opcode : i.opcode = .call)
    (known : p.functions[i.index]? = some callee) {u : σ} {version : Function}
    (reported : u = profiler.recordCall i.index callee t)
    (enters : version = profiler.version i.index callee u) {below arguments : Array Value}
    (entries : c.stack.entries = below ++ arguments) (visible : c.stack.base ≤ below.size)
    (count : arguments.size = version.arity) :
    Steps p profiler t c s (.running u
      (entered i.index version (some (s.frame.pc + 1)) (c.plug (s.counted 1)) below arguments))
  | departed {value : Option Value} {left : Array Value}
    (departs : Departs s.frame c.stack value left) {status : Status σ (Option Value)}
    (departure : Departure t c s value status) : Steps p profiler t c s status

/-- A function is entered, or it is not and nothing has changed. -/
theorem enter_cases {m : Machine} (visible : m.stack.base ≤ m.stack.entries.size) (index : Nat)
    (f : Function) (returnAddress : Option Nat) :
    (∃ fault, enter index f returnAddress m = .error fault m) ∨
      ∃ below arguments : Array Value, m.stack.entries = below ++ arguments ∧
        m.stack.base ≤ below.size ∧ arguments.size = f.arity ∧
        enter index f returnAddress m =
          .ok () (entered index f returnAddress m below arguments) := by
  by_cases deep : m.limits.callDepth ≤ m.depth
  · exact .inl ⟨_, enter_deep deep index f returnAddress⟩
  by_cases few : m.stack.visible < f.arity
  · exact .inl ⟨_, enter_starved (Nat.lt_of_not_le deep) few index returnAddress⟩
  obtain ⟨below, arguments, entries, count, above⟩ :=
    m.stack.exists_arguments visible (Nat.le_of_not_lt few)
  exact .inr ⟨below, arguments, entries, above, count,
    enter_eq (Nat.lt_of_not_le deep) entries above count index returnAddress⟩

variable {ground : Nat} {c : Core} {s : Surroundings}

/-- A frame leaves what is below its base, with or without a value on top. -/
theorem leave_cases_of_departs (framed : Framed ground (c.plug s))
    (balanced : c.heap.Balanced (c.plug s).held) {value : Option Value} {left : Array Value}
    (departs : Departs s.frame c.stack value left) (count : Nat) :
    Leaves c (s.counted count) value
      (leave value ((c.withEntries left).plug (s.counted count))) := by
  have base := framed.base_plug
  have visible := framed.visible
  have room : c.stack.entries.size ≤ c.stack.limit := framed.room
  cases departs with
  | void | ended =>
    exact leave_cases (s := s.counted count) balanced base (base ▸ visible) fun returns =>
      absurd returns Bool.false_ne_true
  | @value i here opcode left value entries above =>
    have smaller : s.frame.base < c.stack.limit := by
      rw [entries, Array.size_push] at room
      omega
    have same : c.stack.entries.take s.frame.base = left.take s.frame.base := by
      rw [entries, Array.take_eq_extract, Array.extract_push_of_le (base ▸ above),
        Array.take_eq_extract]
    have balance : (c.withEntries left).heap.Balanced
        ((some value).toList ++ ((c.withEntries left).plug (s.counted count)).held) := by
      refine balanced.of_count_eq fun id => ?_
      simp only [List.count_append, count_held, frames, Core.plug, Core.withEntries, entries,
        Array.toList_push, Option.toList_some, CallStack.frames_push, List.flatMap_cons,
        Surroundings.counted]
      omega
    have leaves := leave_cases (s := s.counted count) balance base (base ▸ above) fun _ => smaller
    generalize leave (some value) ((c.withEntries left).plug (s.counted count)) = result
      at leaves ⊢
    cases leaves with
    | @resumed caller callers waiting heap evolves =>
      have resumes : resumed (c.withEntries left) (s.counted count) heap caller callers value =
          resumed c (s.counted count) heap caller callers value :=
        congrArg (fun entries => Core.plug
          { limits := c.limits, heap, stack := ⟨handed entries value, caller.base, c.stack.limit⟩
            locals := caller.locals, output := c.output }
          { frame := { caller with pc := s.frame.returnAddress.getD caller.pc }
            callers, counts := (s.counted count).counts }) same.symm
      rw [resumes]
      exact .resumed waiting evolves
    | @finished alone heap evolves =>
      have vacates : vacated (c.withEntries left) (s.counted count) heap =
          vacated c (s.counted count) heap :=
        congrArg (fun entries => Machine.mk c.limits heap
          ⟨entries, s.frame.base, c.stack.limit⟩ .empty c.output (s.counted count).counts)
          same.symm
      rw [vacates]
      exact .finished alone evolves

/-- A return always succeeds. -/
theorem step_of_departs (p : Program) (profiler : Profiler σ) (framed : Framed ground (c.plug s))
    (balanced : Holder.Balanced (c.plug s) []) (t : σ) {value : Option Value}
    {left : Array Value} (departs : Departs s.frame c.stack value left) :
    Departure t c s value (step p profiler t (c.plug s)) := by
  obtain ⟨count, leaves⟩ := advance_of_departs p departs
  have cases_of_leaving := leave_cases_of_departs framed balanced.2 departs count
  rw [step_eq_conclude, leaves]
  generalize leave value ((c.withEntries left).plug (s.counted count)) = result
    at cases_of_leaving
  cases cases_of_leaving with
  | resumed waiting evolves =>
    exact Departure.resumed (s := s) waiting evolves (s.counted count).counts
  | finished alone evolves =>
    exact Departure.finished (s := s) alone evolves (s.counted count).counts

/-- A step of a framed machine does one of the things listed. -/
theorem step_cases (framed : Framed ground (c.plug s)) (balanced : Holder.Balanced (c.plug s) [])
    (t : σ) : Steps p profiler t c s (step p profiler t (c.plug s)) := by
  have visible := framed.visible
  have advances := advance_cases p c s
  rw [step_eq_conclude]
  generalize advanced : advance p (c.plug s) = result at advances ⊢
  cases advances with
  | stayed follows address => exact .stayed follows address
  | failed follows fault count => exact .failed follows fault t count
  | departed departs count =>
    rw [← advanced, ← step_eq_conclude]
    exact .departed departs (step_of_departs p profiler framed balanced t departs)
  | @called i callee here opcode known =>
    simp only [conclude]
    let u := profiler.recordCall i.index callee t
    rcases enter_cases (m := c.plug (s.counted 1)) visible i.index
        (profiler.version i.index callee u) (some (s.frame.pc + 1)) with
      ⟨fault, failed⟩ | ⟨below, arguments, entries, above, count, entered⟩
    · rw [failed]
      exact .failed (.refl c) fault u 1
    · rw [entered]
      exact .entered here opcode known rfl rfl entries above count

/-- Leaving a frame takes the heap on by elementary changes. -/
theorem Departure.evolves {t : σ} {value : Option Value} {status : Status σ (Option Value)}
    (departure : Departure t c s value status) : c.heap.Evolves status.machine.heap := by
  cases departure with
  | resumed _ evolves | finished _ evolves => exact evolves

/-- A step takes the heap on by elementary changes. -/
theorem Steps.evolves {t : σ} {status : Status σ (Option Value)}
    (steps : Steps p profiler t c s status) : c.heap.Evolves status.machine.heap := by
  cases steps with
  | stayed follows | failed follows => exact follows.heap
  | entered => exact .refl
  | departed _ departure => exact departure.evolves

/-- A machine that is not at a loss for a frame has a core and surroundings. -/
theorem exists_plug {m : Machine} (running : m.frames ≠ []) : ∃ c s, m = Core.plug c s := by
  obtain ⟨limits, heap, stack, calls, output, counts⟩ := m
  obtain rfl | ⟨frame, callers, rfl⟩ := calls.eq_empty_or_push
  · exact absurd rfl running
  · exact ⟨⟨limits, heap, stack, frame.locals, output⟩, ⟨frame, callers, counts⟩, rfl⟩

end Steps

section Runs

variable {σ : Type} (p : Program) (profiler : Profiler σ) {ground : Nat}

/-- The operands are divided among the frames at any point of an execution. When it has finished,
no frames are left. -/
def StatusFramed (ground : Nat) : Status σ (Option Value) → Prop
  | .running _ m => Framed ground m
  | .finished _ _ m => Framed ground m ∧ m.frames = []
  | .faulted .. => True

/-- A function that is entered has no operands yet. -/
theorem entered_framed {m : Machine} {below arguments : Array Value}
    (layered : Layered ground below.size m.frames)
    (entries : m.stack.entries = below ++ arguments)
    (room : m.stack.entries.size ≤ m.stack.limit) (index : Nat) (f : Function)
    (returnAddress : Option Nat) :
    Framed ground (entered index f returnAddress m below arguments) := by
  rw [entries, Array.size_append] at room
  constructor
  case base => rfl
  case layered => exact ⟨Nat.le_refl _, layered⟩
  case room => exact Nat.le_trans (Nat.le_add_right _ _) room

/-- An instruction that stays in its function works above the base, within the limit. -/
theorem Framed.stayed {c after : Core} {s : Surroundings} (framed : Framed ground (c.plug s))
    (follows : c.Follows after) (address : Nat) :
    Framed ground (after.plug ((s.counted 1).goto address)) where
  base := follows.stack.base.trans framed.base
  layered := by
    have visible := follows.stack.visible framed.visible
    rw [follows.stack.base] at visible
    exact ⟨framed.base_plug ▸ visible, framed.layered.2⟩
  room := follows.stack.room framed.room

/-- The operands of the callers are what is left when a frame is gone. -/
theorem Framed.size_take {c : Core} {s : Surroundings} (framed : Framed ground (c.plug s)) :
    (c.stack.entries.take s.frame.base).size = s.frame.base := by
  rw [Array.take_eq_extract, Array.size_extract, Nat.sub_zero]
  exact Nat.min_eq_left framed.layered.1

/-- A return finds room for its value, as it has taken one from the same stack. -/
theorem Departs.room {c : Core} {s : Surroundings} (framed : Framed ground (c.plug s))
    {value : Option Value} {left : Array Value} (departs : Departs s.frame c.stack value left) :
    (handed (c.stack.entries.take s.frame.base) value).size ≤ c.stack.limit := by
  have room : c.stack.entries.size ≤ c.stack.limit := framed.room
  have visible := framed.visible
  have base := framed.base_plug
  cases departs with
  | value here opcode entries above =>
    rw [handed_some, Array.size_push, framed.size_take]
    rw [entries, Array.size_push] at room
    omega
  | void | ended =>
    rw [handed_none, framed.size_take]
    omega

/-- The caller's operands are where it left them, with the value on top. -/
theorem Framed.resumed {c : Core} {s : Surroundings} (framed : Framed ground (c.plug s))
    {value : Option Value} {left : Array Value} (departs : Departs s.frame c.stack value left)
    {caller : Frame} {callers : CallStack} (waiting : s.callers = callers.push caller)
    (heap : Heap) (counts : ExecutionCounts) :
    Framed ground (Machine.resumed c { s with counts } heap caller callers value) := by
  have layered : Layered ground s.frame.base s.callers.frames := framed.layered.2
  rw [waiting] at layered
  constructor
  case base => rfl
  case room => exact departs.room framed
  case layered =>
    refine ⟨?_, layered.2⟩
    have kept := framed.size_take
    have grows : (c.stack.entries.take s.frame.base).size ≤
        (handed (c.stack.entries.take s.frame.base) value).size := by
      cases value with
      | none => exact Nat.le_refl _
      | some value =>
        rw [handed_some, Array.size_push]
        exact Nat.le_succ _
    exact Nat.le_trans layered.1 (kept ▸ grows)

/-- Below the outermost frame there is the ground only. -/
theorem Framed.vacated {c : Core} {s : Surroundings} (framed : Framed ground (c.plug s))
    (alone : s.callers = .empty) (heap : Heap) (counts : ExecutionCounts) :
    Framed ground (Machine.vacated c { s with counts } heap) := by
  have layered : Layered ground s.frame.base s.callers.frames := framed.layered.2
  rw [alone] at layered
  have bottom : s.frame.base = ground := layered
  constructor
  case base => exact bottom
  case layered => exact framed.size_take.trans bottom
  case room =>
    have room : c.stack.entries.size ≤ c.stack.limit := framed.room
    have inside : s.frame.base ≤ c.stack.entries.size := framed.layered.1
    exact framed.size_take ▸ Nat.le_trans inside room

/-- A step keeps the operands divided. -/
theorem step_framed (t : σ) {m : Machine} (framed : Framed ground m)
    (balanced : Holder.Balanced m []) :
    StatusFramed ground (step p profiler t m) ∧
      m.heap.Evolves (step p profiler t m).machine.heap := by
  obtain ⟨c, s, rfl⟩ := exists_plug balanced.1
  have steps : Steps p profiler t c s (step p profiler t (c.plug s)) :=
    step_cases framed balanced t
  refine ⟨?_, steps.evolves⟩
  generalize step p profiler t (c.plug s) = status at steps
  cases steps with
  | stayed follows address => exact framed.stayed follows address
  | failed => trivial
  | entered here opcode known reported enters entries visible count =>
    have layered : Layered ground _ (c.plug (s.counted 1)).frames :=
      ⟨framed.base_plug ▸ visible, framed.layered.2⟩
    exact entered_framed layered entries framed.room _ _ _
  | departed departs departure =>
    cases departure with
    | resumed waiting evolves counts => exact framed.resumed departs waiting _ counts
    | finished alone evolves counts => exact ⟨framed.vacated alone _ counts, rfl⟩

/-- The operands stay divided over any number of steps. -/
theorem run_framed (fuel : Nat) (t : σ) {m : Machine} (framed : Framed ground m)
    (balanced : Holder.Balanced m []) :
    StatusFramed ground (run p profiler fuel t m) ∧
      m.heap.Evolves (run p profiler fuel t m).machine.heap := by
  induction fuel generalizing t m with
  | zero => exact ⟨framed, .refl⟩
  | succ fuel ih =>
    have once := step_framed p profiler t framed balanced
    have kept := step_keeps p profiler t balanced
    unfold run
    cases stepped : step p profiler t m with
    | running u after =>
      rw [stepped] at once kept
      obtain ⟨later, evolves⟩ := ih u once.1 kept
      exact ⟨later, once.2.trans evolves⟩
    | finished answer u after =>
      rw [stepped] at once
      exact once
    | faulted fault u after =>
      rw [stepped] at once
      exact once

end Runs

section Calls

variable {σ : Type} (p : Program) (profiler : Profiler σ) {m : Machine}

/-- Arguments for which there is no room are given back. -/
theorem start_crowded_evolves (index : Nat) {values : List Value}
    (crowded : m.stack.limit < values.length) (t : σ) :
    m.heap.Evolves ((start p profiler t index values).after m).heap := by
  have refused : Takes Effect (throw (.stackOverflow m.stack.limit) : Action Machine Unit) :=
    .throw _
  have effects := ((Takes.forM release_takes values).bind fun _ => refused) m
  unfold Action.after at effects ⊢
  rw [start_crowded p profiler t index crowded]
  exact evolves_of_effects effects

/-- An import gives one value for each argument. -/
theorem length_importAll (h : Heap) (arguments : List HostValue) :
    (h.importAll arguments).1.length = arguments.length := by
  induction arguments generalizing h with
  | nil => rfl
  | cons first rest ih => exact congrArg Nat.succ (ih _)

/-- A function starts on the arguments that its version leaves. -/
theorem start_framed (t : σ) {index : Nat} {values : List Value} {f : Function}
    (found : p.functions[index]? = some f) (balanced : m.heap.Balanced values)
    (idle : m.frames = []) (empty : m.stack.entries = #[]) (base : m.stack.base = 0) :
    match start p profiler t index values m with
    | .ok _ after => m.heap.Evolves after.heap ∧ Holder.Balanced after [] ∧
        Framed (values.length - (profiler.version index f t).arity) after
    | .error _ after => m.heap.Evolves after.heap := by
  by_cases crowded : m.stack.limit < values.length
  · have evolves := start_crowded_evolves p profiler index crowded t
    obtain ⟨fault, after, failed⟩ := start_of_crowded p index crowded
    unfold Action.after at evolves
    rw [failed profiler t] at evolves ⊢
    exact evolves
  have room : m.stack.entries.size + values.length ≤ m.stack.limit := by
    rw [empty, Array.size_empty, Nat.zero_add]
    exact Nat.le_of_not_lt crowded
  have keeps := start_keeps p profiler t index balanced idle empty
  rw [start_of_room room found] at keeps ⊢
  let loaded := m.loaded values
  let version := profiler.version index f t
  have entries : loaded.stack.entries = values.toArray := by
    change m.stack.entries ++ values.toArray = values.toArray
    rw [empty, Array.empty_append]
  have visible : loaded.stack.base ≤ loaded.stack.entries.size := base.symm ▸ Nat.zero_le _
  rcases enter_cases visible index version none with
    ⟨fault, failed⟩ | ⟨below, taken, split, above, count, entered⟩
  · rw [failed]
    exact .refl
  rw [entered] at keeps ⊢
  have size : below.size + version.arity = values.length := by
    rw [← count, ← Array.size_append, ← split, entries, List.size_toArray]
  have layered : Layered (values.length - version.arity) below.size loaded.frames := by
    have none_called : loaded.frames = [] := idle
    rw [none_called]
    exact Nat.eq_sub_of_add_eq size
  have within : loaded.stack.entries.size ≤ loaded.stack.limit := by
    rw [entries, List.size_toArray]
    exact Nat.le_of_not_lt crowded
  exact ⟨.refl, keeps, entered_framed layered split within _ _ _⟩

/-- A call is admitted if it passes as many arguments as its function takes. -/
theorem arity_of_entryOf {p : Program} {name : String} {arguments : List HostValue} {index : Nat}
    (admitted : entryOf p name arguments = .ok index) :
    ∃ f, p.functions[index]? = some f ∧ arguments.length = f.arity := by
  unfold entryOf at admitted
  split at admitted
  next => cases admitted
  split at admitted
  next => cases admitted
  next f found =>
    cases checked : f.checkArguments arguments with
    | error fault =>
      rw [checked] at admitted
      cases admitted
    | ok _ =>
      rw [checked] at admitted
      cases admitted
      refine ⟨f, found, ?_⟩
      unfold Function.checkArguments at checked
      split at checked
      next => cases checked
      split at checked
      next => cases checked
      omega

/-- The operands are divided among the frames in every state of a call. -/
theorem underway_framed (fuel : Nat) (arguments : List HostValue) (t : σ) {index : Nat}
    {f : Function} (found : p.functions[index]? = some f) (balanced : m.heap.Balanced m.held) :
    StatusFramed (arguments.length - (profiler.version index f t).arity)
        (underway p profiler fuel index arguments t m) ∧
      m.heap.Evolves (underway p profiler fuel index arguments t m).machine.heap := by
  let imported : Machine := { m with heap := (m.heap.importAll arguments).2 }
  have unwound := unwind_keeps (m := imported) (balanced.importAll arguments)
  have early : m.heap.Evolves imported.unwind.heap :=
    (m.heap.importAll_evolves arguments).trans (unwind_evolves imported)
  have started := start_framed p profiler t found unwound rfl rfl rfl
  rw [length_importAll] at started
  unfold underway
  dsimp only
  cases ran : start p profiler t index (m.heap.importAll arguments).1 imported.unwind with
  | error fault after =>
    rw [ran] at started
    exact ⟨trivial, early.trans started⟩
  | ok _ after =>
    rw [ran] at started
    obtain ⟨evolves, balanced, framed⟩ := started
    obtain ⟨framed, later⟩ := run_framed p profiler fuel t framed balanced
    exact ⟨framed, early.trans (evolves.trans later)⟩

end Calls

end Machine

end HotPath
