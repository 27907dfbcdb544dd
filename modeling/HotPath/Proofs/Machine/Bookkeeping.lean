import HotPath.Proofs.Machine.Inversion

/-!
# Limits and frames in every reachable state

The books of a machine are its limits and its frames: how many operands and how many calls there
may be, where the operands of each call begin, how many slots it has, where it stands and
where it goes back to. `Booked` is the invariant. Entering a function (`entered_booked`), leaving
one (`Booked.left`) and whatever else an instruction does (`Booked.stayed`) preserve it, so a step
does (`step_booked`) and with it every call of every machine that a host can have.

`Orderly` spells out what the invariant says, and `orderly_underway` adds what it means for the next
step: there is a frame to take it, it returns implicitly exactly at the end of a function, and
a stack underflow is for want of operands and not of a frame.
-/

namespace HotPath

/-- A frame has the slots of its function, and stands at an instruction of it or just behind the
last one. -/
structure Frame.Fits (frame : Frame) : Prop where
  slots : frame.locals.size = frame.function.localCount
  inside : frame.pc ≤ frame.function.instructionCount

/-- A frame goes back into its caller, or just behind the end of it. The outermost frame goes
back nowhere. -/
def GoesBack (returnAddress : Option Nat) : List Frame → Prop
  | [] => returnAddress = none
  | caller :: _ =>
    ∃ address, returnAddress = some address ∧ address ≤ caller.function.instructionCount

/-- Every frame fits its function and goes back to its caller. -/
def Nested : List Frame → Prop
  | [] => True
  | frame :: callers => frame.Fits ∧ GoesBack frame.returnAddress callers ∧ Nested callers

namespace Nested

variable {frames : List Frame}

/-- All frames of a nest fit their functions. -/
theorem fits (nested : Nested frames) : ∀ frame ∈ frames, frame.Fits := by
  induction frames with
  | nil => exact fun _ member => absurd member List.not_mem_nil
  | cons first callers ih =>
    intro frame member
    rcases List.mem_cons.mp member with rfl | member
    · exact nested.1
    · exact ih nested.2.2 frame member

/-- Each frame of a nest goes back to the one below it. -/
theorem goesBack (nested : Nested frames) {k : Nat} {frame : Frame}
    (here : frames[k]? = some frame) : GoesBack frame.returnAddress (frames.drop (k + 1)) := by
  induction frames generalizing k with
  | nil => cases here
  | cons first callers ih =>
    cases k with
    | zero =>
      cases here
      exact nested.2.1
    | succ k => exact ih nested.2.2 here

end Nested

/-- The bases go up from the outermost frame to the innermost one. -/
theorem Layered.pairwise {ground height : Nat} {frames : List Frame}
    (layered : Layered ground height frames) :
    (∀ frame ∈ frames, frame.base ≤ height) ∧
      frames.Pairwise fun inner outer => outer.base ≤ inner.base := by
  induction frames generalizing height with
  | nil => exact ⟨fun _ member => absurd member List.not_mem_nil, .nil⟩
  | cons first callers ih =>
    obtain ⟨below, ordered⟩ := ih layered.2
    refine ⟨fun frame member => ?_, .cons below ordered⟩
    rcases List.mem_cons.mp member with rfl | member
    · exact layered.1
    · exact Nat.le_trans (below frame member) layered.1

namespace Machine

open HotPath.Action

/-- The books are in order: the operands are divided among the frames, neither are too many, and
the frames fit and are nested. -/
structure Booked (ground : Nat) (limits : Limits) (m : Machine) : Prop
    extends Framed ground m where
  bounds : m.limits = limits
  capacity : m.stack.limit = limits.stackSize
  depth : m.depth ≤ limits.callDepth
  nested : Nested m.frames

section Steps

variable {ground : Nat} {limits : Limits} {c : Core} {s : Surroundings}

/-- An instruction that stays in its function leaves the books as they are. -/
theorem Booked.stayed (booked : Booked ground limits (c.plug s)) {after : Core}
    (keeps : c.Keeps after) {address : Nat}
    (inside : address ≤ s.frame.function.instructionCount) :
    Booked ground limits (after.plug ((s.counted 1).goto address)) where
  toFramed := booked.toFramed.stayed keeps.toFollows address
  bounds := keeps.limits.trans booked.bounds
  capacity := keeps.stack.limit.trans booked.capacity
  depth := booked.depth
  nested := by
    obtain ⟨fits, back, callers⟩ := booked.nested
    exact ⟨⟨keeps.slots.trans fits.slots, inside⟩, back, callers⟩

/-- A function starts with the slots that it declares, its arguments among them. -/
theorem entered_booked {m : Machine} {below arguments : Array Value} {index : Nat} {f : Function}
    {returnAddress : Option Nat}
    (framed : Framed ground (entered index f returnAddress m below arguments))
    (same : m.limits = limits) (capacity : m.stack.limit = limits.stackSize)
    (room : m.depth < limits.callDepth) (count : arguments.size = f.arity)
    (back : GoesBack returnAddress m.frames) (nested : Nested m.frames) :
    Booked ground limits (entered index f returnAddress m below arguments) where
  toFramed := framed
  bounds := same
  capacity := capacity
  depth := room
  nested := by
    have arity := f.arity_le
    have slots : (arguments ++ Array.replicate (f.localCount - arguments.size) Value.null).size =
        f.localCount := by
      rw [Array.size_append, Array.size_replicate, count]
      exact Nat.add_sub_cancel' arity
    exact ⟨⟨slots, Nat.zero_le _⟩, back, nested⟩

/-- A frame that has been left leaves the books to its caller. -/
theorem Booked.left {σ : Type} (booked : Booked ground limits (c.plug s)) {value : Option Value}
    {entries : Array Value} (departs : Departs s.frame c.stack value entries) {count : Nat}
    {t : σ} {status : Status σ (Option Value)}
    (left : Left t c (s.counted count) value status) :
    Booked ground limits status.machine := by
  have deep : s.callers.depth + 1 ≤ limits.callDepth := booked.depth
  obtain ⟨-, back, suspended⟩ := booked.nested
  cases left with
  | @resumed caller callers waiting heap =>
    have frames : s.callers.frames = caller :: callers.frames := congrArg CallStack.frames waiting
    rw [frames] at back suspended
    obtain ⟨address, returns, inside⟩ := back
    obtain ⟨fits, back, outer⟩ := suspended
    constructor
    case toFramed =>
      exact booked.toFramed.resumed departs waiting heap (s.counted count).counts
    case bounds => exact booked.bounds
    case capacity => exact booked.capacity
    case depth =>
      have depths := congrArg CallStack.depth waiting
      exact Nat.le_trans (Nat.le_of_eq depths.symm) (Nat.le_of_succ_le deep)
    case nested =>
      have goes : s.frame.returnAddress.getD caller.pc = address := by
        have returns : s.frame.returnAddress = some address := returns
        rw [returns, Option.getD_some]
      exact ⟨⟨fits.slots, Nat.le_trans (Nat.le_of_eq goes) inside⟩, back, outer⟩
  | finished alone heap =>
    constructor
    case toFramed => exact booked.toFramed.vacated alone heap (s.counted count).counts
    case bounds => exact booked.bounds
    case capacity => exact booked.capacity
    case depth => exact Nat.zero_le _
    case nested => trivial

variable {σ : Type} {p : Program} {profiler : Profiler σ} {i : Instruction}

/-- Whatever an instruction carries out, the books are right afterwards. -/
theorem Booked.carried (booked : Booked ground limits (c.plug s))
    (here : s.frame.function.code.Has s.frame.pc i) {t : σ} {status : Status σ (Option Value)}
    (carries : Carries p profiler t c s i status) : Booked ground limits status.machine := by
  have inside : s.frame.pc + 1 ≤ s.frame.function.instructionCount := Code.lt_of_has here
  -- An instruction that does not send the frame on leaves it standing there.
  have standing {after : Core} (keeps : c.Keeps after) :
      Booked ground limits (after.plug (s.counted 1)) :=
    booked.stayed keeps (Nat.le_of_succ_le inside)
  cases carries with
  | stayed keeps within => exact booked.stayed keeps within
  | failed keeps => exact standing keeps
  | refused => exact standing (.refl c)
  | left departs left => exact booked.left departs left
  | entered opcode known reported enters room entries visible count =>
    have waiting := standing (.refl c)
    have layered : Layered ground _ (c.plug (s.counted 1)).frames :=
      ⟨booked.base_plug ▸ visible, booked.layered.2⟩
    refine entered_booked (entered_framed layered entries booked.room _ _ _) waiting.bounds
      waiting.capacity ?_ count ⟨_, rfl, inside⟩ waiting.nested
    exact booked.bounds ▸ room

/-- A step keeps the books in order, whatever it leads to. -/
theorem step_booked (p : Program) (profiler : Profiler σ) (t : σ) {m : Machine}
    (booked : Booked ground limits m) (balanced : Holder.Balanced m []) :
    Booked ground limits (step p profiler t m).machine := by
  obtain ⟨c, s, rfl⟩ := exists_plug balanced.1
  have moves := step_moves p profiler booked.toFramed balanced t
  generalize step p profiler t (c.plug s) = status at moves
  cases moves with
  | ended absent left =>
    have left : Left t c (s.counted 0) none status := left
    exact booked.left (.ended absent) left
  | unreadable => exact booked
  | carried here carries => exact booked.carried here carries

/-- So do any number of steps. -/
theorem run_booked (p : Program) (profiler : Profiler σ) (fuel : Nat) (t : σ) {m : Machine}
    (booked : Booked ground limits m) (balanced : Holder.Balanced m []) :
    Booked ground limits (run p profiler fuel t m).machine := by
  induction fuel generalizing t m with
  | zero => exact booked
  | succ fuel ih =>
    have once := step_booked p profiler t booked balanced
    have kept := step_keeps p profiler t balanced
    unfold run
    cases stepped : step p profiler t m with
    | running u after =>
      rw [stepped] at once kept
      exact ih u once kept
    | finished answer u after =>
      rw [stepped] at once
      exact once
    | faulted fault u after =>
      rw [stepped] at once
      exact once

end Steps

/-- What the books say, frame by frame. -/
structure Orderly (m : Machine) : Prop where
  stackSize : m.stack.size ≤ m.limits.stackSize
  callDepth : m.depth ≤ m.limits.callDepth
  base : ∀ frame ∈ m.frames.head?, m.stack.base = frame.base
  visible : m.stack.base ≤ m.stack.size
  /-- The frames are listed from the innermost one outwards. -/
  bases : m.frames.Pairwise fun inner outer => outer.base ≤ inner.base
  slots : ∀ frame ∈ m.frames, frame.locals.size = frame.function.localCount
  inside : ∀ frame ∈ m.frames, frame.pc ≤ frame.function.instructionCount
  returns : ∀ (k : Nat) (callee caller : Frame), m.frames[k]? = some callee →
    m.frames[k + 1]? = some caller →
      ∃ address, callee.returnAddress = some address ∧ address ≤ caller.function.instructionCount
  outermost : ∀ frame ∈ m.frames.getLast?, frame.returnAddress = none

/-- A machine whose books are right is orderly. -/
theorem Booked.orderly {ground : Nat} {limits : Limits} {m : Machine}
    (booked : Booked ground limits m) : Orderly m := by
  obtain ⟨framed, rfl, capacity, depth, nested⟩ := booked
  have ordered := framed.layered.pairwise
  constructor
  case stackSize => exact capacity ▸ framed.room
  case callDepth => exact depth
  case bases => exact ordered.2
  case slots => exact fun frame member => (nested.fits frame member).slots
  case inside => exact fun frame member => (nested.fits frame member).inside
  case base =>
    intro frame first
    obtain ⟨callers, frames⟩ := List.head?_eq_some_iff.mp first
    rw [framed.base, frames]
    rfl
  case visible =>
    have base := framed.base
    have layered := framed.layered
    cases frames : m.frames with
    | nil =>
      rw [frames] at base layered
      exact Nat.le_of_eq (base.trans layered.symm)
    | cons frame callers =>
      rw [frames] at base layered
      exact base ▸ layered.1
  case returns =>
    intro k callee caller here next
    have back := nested.goesBack here
    obtain ⟨inside, rfl⟩ := List.getElem?_eq_some_iff.mp next
    rwa [List.drop_eq_getElem_cons inside] at back
  case outermost =>
    intro frame last
    rw [List.getLast?_eq_getElem?] at last
    have back := nested.goesBack last
    rwa [List.drop_eq_nil_of_le (by omega)] at back

/-- Without calls in progress there is little to keep in order. -/
theorem orderly_of_idle {m : Machine} (idle : m.frames = []) (base : m.stack.base = 0)
    (room : m.stack.size ≤ m.limits.stackSize) : Orderly m := by
  have shallow : m.depth = 0 := by rw [depth_eq_length, idle, List.length_nil]
  constructor
  case stackSize => exact room
  case callDepth => exact shallow ▸ Nat.zero_le _
  case visible => exact base ▸ Nat.zero_le _
  all_goals simp [idle]

section Calls

variable {σ : Type} (p : Program) (profiler : Profiler σ) {m : Machine} {limits : Limits}

/-- Starting a function on an unwound machine puts the books in order, or leaves no frame. -/
theorem start_booked (t : σ) {index : Nat} {values : List Value} {f : Function}
    (found : p.functions[index]? = some f) (balanced : m.heap.Balanced values)
    (idle : m.frames = []) (empty : m.stack.entries = #[]) (base : m.stack.base = 0)
    (bounds : m.limits = limits) (capacity : m.stack.limit = limits.stackSize) :
    match start p profiler t index values m with
    | .ok _ after => Booked (values.length - (profiler.version index f t).arity) limits after
    | .error _ after => Orderly after ∧ after.limits = limits ∧
        after.stack.limit = limits.stackSize := by
  have framed := start_framed p profiler t found balanced idle empty base
  by_cases crowded : m.stack.limit < values.length
  · have given : m.heap.Balanced (values ++ []) := by rwa [List.append_nil]
    obtain ⟨heap, released, -⟩ := forM_release given
    rw [start_crowded p profiler t index crowded, bind_of_ok released]
    refine ⟨orderly_of_idle idle base ?_, bounds, capacity⟩
    simp [OperandStack.size, empty]
  have fits : values.length ≤ limits.stackSize := capacity ▸ Nat.le_of_not_lt crowded
  have room : m.stack.entries.size + values.length ≤ m.stack.limit := by
    rw [empty, Array.size_empty, Nat.zero_add]
    exact Nat.le_of_not_lt crowded
  have loaded : Orderly (m.loaded values) := by
    refine orderly_of_idle idle base ?_
    simpa [Machine.loaded, OperandStack.size, empty, bounds] using fits
  rw [start_of_room room found] at framed ⊢
  let version := profiler.version index f t
  by_cases deep : m.limits.callDepth ≤ m.depth
  · rw [enter_deep (m := m.loaded values) deep]
    exact ⟨loaded, bounds, capacity⟩
  by_cases few : (m.loaded values).stack.visible < version.arity
  · rw [enter_starved (m := m.loaded values) (Nat.lt_of_not_le deep) few]
    exact ⟨loaded, bounds, capacity⟩
  obtain ⟨below, arguments, entries, count, above⟩ :=
    (m.loaded values).stack.exists_arguments loaded.visible (Nat.le_of_not_lt few)
  rw [enter_eq (m := m.loaded values) (Nat.lt_of_not_le deep) entries above count] at framed ⊢
  have unnested : (m.loaded values).frames = [] := idle
  refine entered_booked framed.2.2 bounds capacity ?_ count ?_ ?_
  · exact bounds ▸ Nat.lt_of_not_le deep
  · rw [unnested]
    rfl
  · rw [unnested]
    trivial

/-- The books at any point of a call. -/
structure StatusOrderly (limits : Limits) (status : Status σ (Option Value)) : Prop where
  bounds : status.machine.limits = limits
  capacity : status.machine.stack.limit = limits.stackSize
  orderly : Orderly status.machine
  running : ∀ t after, status = .running t after →
    Holder.Balanced after [] ∧ ∃ ground, Booked ground limits after

/-- An execution under way is orderly at every step, and after it has ended. -/
theorem underway_orderly (balanced : m.heap.Balanced m.held)
    (capacity : m.stack.limit = m.limits.stackSize) {index : Nat} {f : Function}
    (found : p.functions[index]? = some f) (fuel : Nat) (arguments : List HostValue) (t : σ) :
    StatusOrderly m.limits (underway p profiler fuel index arguments t m) := by
  let imported : Machine := { m with heap := (m.heap.importAll arguments).2 }
  have unwound := unwind_keeps (m := imported) (balanced.importAll arguments)
  have keeps := underway_keeps p profiler fuel index arguments t balanced
  have started := start_booked p profiler (m := imported.unwind) t found unwound rfl rfl
    rfl rfl capacity
  have framed := start_framed p profiler (m := imported.unwind) t found unwound rfl rfl rfl
  unfold underway at keeps ⊢
  dsimp only at keeps ⊢
  cases ran : start p profiler t index (m.heap.importAll arguments).1 imported.unwind with
  | error fault after =>
    rw [ran] at started
    exact ⟨started.2.1, started.2.2, started.1, fun _ _ running => by cases running⟩
  | ok _ after =>
    rw [ran] at started framed keeps
    have booked := run_booked p profiler fuel t started framed.2.1
    refine ⟨booked.bounds, booked.capacity, booked.orderly, fun u reached running => ?_⟩
    dsimp only at keeps running
    rw [running] at booked keeps
    exact ⟨keeps, _, booked⟩

/-- A call changes neither the limits nor the room for operands. -/
theorem call_limits (balanced : m.heap.Balanced m.held)
    (capacity : m.stack.limit = m.limits.stackSize) (fuel : Nat) (name : String)
    (arguments : List HostValue) (t : σ) :
    (call p profiler fuel name arguments t m).machine.limits = m.limits ∧
      (call p profiler fuel name arguments t m).machine.stack.limit = m.limits.stackSize := by
  cases admitted : entryOf p name arguments with
  | error fault =>
    rw [call_of_refused p profiler admitted]
    exact ⟨rfl, capacity⟩
  | ok index =>
    obtain ⟨f, found, -⟩ := arity_of_entryOf admitted
    obtain ⟨bounds, room, -, -⟩ :=
      underway_orderly p profiler balanced capacity found fuel arguments t
    rw [call_eq_underway p profiler admitted]
    cases reached : underway p profiler fuel index arguments t m with
    | running u after | faulted fault u after =>
      rw [reached] at bounds room
      exact ⟨bounds, room⟩
    | finished answer u after =>
      rw [reached] at bounds room
      cases answer with
      | none => exact ⟨bounds, room⟩
      | some value =>
        dsimp only [onHeap]
        cases Heap.exportHost value after.heap <;> exact ⟨bounds, room⟩

/-- The stack of a machine that a host can have has the room that the limits give it. -/
theorem Hosted.capacity (hosted : Hosted m) : m.stack.limit = m.limits.stackSize := by
  induction hosted with
  | created limits => rfl
  | outputTaken _ ih => exact ih
  | called earlier p profiler fuel name arguments t ended ih =>
    obtain ⟨bounds, room⟩ := call_limits p profiler earlier.balanced ih fuel name arguments t
    rw [bounds, room]

end Calls

section Ends

variable {σ : Type} {p : Program} {profiler : Profiler σ} {ground : Nat} {limits : Limits}

/-- The innermost frame is left without an instruction, so nothing is counted. -/
inductive ReturnsImplicitly (m : Machine) : Status σ (Option Value) → Prop where
  /-- The caller goes on where the frame goes back to. -/
  | resumed {frame caller : Frame} {callers : List Frame}
    (frames : m.frames = frame :: caller :: callers) {t : σ} {after : Machine}
    (counts : after.counts = m.counts)
    (goesOn : after.frames =
      { caller with pc := frame.returnAddress.getD caller.pc } :: callers) :
    ReturnsImplicitly m (.running t after)
  /-- Without a caller the execution has finished, and without a value. -/
  | finished {frame : Frame} (frames : m.frames = [frame]) {t : σ} {after : Machine}
    (counts : after.counts = m.counts) (idle : after.frames = []) :
    ReturnsImplicitly m (.finished none t after)

/-- A frame that is left without an instruction returns implicitly. -/
theorem Left.returnsImplicitly {t : σ} {c : Core} {s : Surroundings}
    {status : Status σ (Option Value)} (left : Left t c s none status) :
    ReturnsImplicitly (c.plug s) status := by
  cases left with
  | @resumed caller callers waiting heap =>
    have frames : s.callers.frames = caller :: callers.frames := congrArg CallStack.frames waiting
    exact .resumed (congrArg _ frames) rfl rfl
  | finished alone heap =>
    have frames : s.callers.frames = [] := congrArg CallStack.frames alone
    exact .finished (congrArg _ frames) rfl rfl

/-- Carrying out an instruction counts it. -/
theorem Carries.counted {t : σ} {c : Core} {s : Surroundings} {i : Instruction}
    {status : Status σ (Option Value)} (carries : Carries p profiler t c s i status) :
    status.machine.counts.instructions = s.counts.instructions + 1 := by
  cases carries with
  | left _ left => cases left <;> rfl
  | _ => rfl

/-- An implicit return is not counted. -/
theorem ReturnsImplicitly.uncounted {m : Machine} {status : Status σ (Option Value)}
    (returns : ReturnsImplicitly m status) : status.machine.counts = m.counts := by
  cases returns with
  | resumed _ counts | finished _ counts => exact counts

variable {m : Machine} {frame : Frame} {callers : List Frame}

/-- A return is implicit exactly at the end of a function, which is where there is no record,
whatever bytes may be left there. -/
theorem returnsImplicitly_iff (booked : Booked ground limits m) (balanced : Holder.Balanced m [])
    (frames : m.frames = frame :: callers) (t : σ) :
    ReturnsImplicitly m (step p profiler t m) ↔
      frame.pc = frame.function.instructionCount := by
  obtain ⟨c, s, rfl⟩ := exists_plug balanced.1
  obtain ⟨rfl, -⟩ := List.cons.inj frames
  have inside : s.frame.pc ≤ s.frame.function.instructionCount := booked.nested.1.inside
  change _ ↔ s.frame.pc = s.frame.function.code.instructionCount
  constructor
  · intro returns
    have moves := step_moves p profiler booked.toFramed balanced t
    generalize step p profiler t (c.plug s) = status at moves returns
    cases moves with
    | ended absent => exact Nat.le_antisymm inside ((Code.recordAt?_eq_none_iff _).mp absent)
    | unreadable => cases returns
    | carried _ carries =>
      have counted := carries.counted
      rw [returns.uncounted] at counted
      exact absurd counted (Nat.ne_of_lt (Nat.lt_succ_self _))
  · intro ends
    have absent := Code.recordAt?_eq_none (Nat.le_of_eq ends.symm)
    exact (step_at_end booked.toFramed balanced absent t).returnsImplicitly

/-- A step that faults with a stack underflow still has its frame. It has run out of operands, or
it is a call with too few arguments. -/
theorem step_underflow (booked : Booked ground limits m) (balanced : Holder.Balanced m [])
    (frames : m.frames = frame :: callers) {t u : σ} {after : Machine}
    (underflow : step p profiler t m = .faulted .stackUnderflow u after) :
    after.frames ≠ [] ∧ (after.stack.Exhausted ∨
      ∃ i callee, frame.function.code.Has frame.pc i ∧ i.opcode = .call ∧
        p.functions[i.index]? = some callee ∧
        after.stack.visible < (profiler.version i.index callee u).arity) := by
  obtain ⟨c, s, rfl⟩ := exists_plug balanced.1
  obtain ⟨rfl, -⟩ := List.cons.inj frames
  have moves := step_moves p profiler booked.toFramed balanced t
  rw [underflow] at moves
  cases moves with
  | ended _ left => cases left
  | @carried i here _ carries =>
    cases carries with
    | failed keeps _ want => exact ⟨List.cons_ne_nil _ _, .inl (want rfl)⟩
    | refused opcode known reported _ want =>
      exact ⟨List.cons_ne_nil _ _, .inr ⟨i, _, here, opcode, known, want rfl⟩⟩
    | left _ left => cases left

end Ends

/-- In every state of every call on a machine that a host can have, the limits hold and the frames
are in order. While the call goes on there is a frame to take the next step. It returns implicitly
exactly at the end of its function, which is where there is no further record, and if it
faults with a stack underflow it is for want of operands or arguments. -/
theorem orderly_underway {σ : Type} {m : Machine} (hosted : Hosted m) {p : Program} {name : String}
    {arguments : List HostValue} {index : Nat} (admitted : entryOf p name arguments = .ok index)
    (profiler : Profiler σ) (fuel : Nat) (s : σ) :
    (underway p profiler fuel index arguments s m).machine.limits = m.limits ∧
    Orderly (underway p profiler fuel index arguments s m).machine ∧
    ∀ t reached, underway p profiler fuel index arguments s m = .running t reached →
      ∃ frame callers, reached.frames = frame :: callers ∧
        (frame.function.code.recordAt? frame.pc = none ↔
          frame.pc = frame.function.instructionCount) ∧
        (ReturnsImplicitly reached (step p profiler t reached) ↔
          frame.pc = frame.function.instructionCount) ∧
        ∀ u after, step p profiler t reached = .faulted .stackUnderflow u after →
          after.frames ≠ [] ∧ (after.stack.Exhausted ∨
            ∃ i callee, frame.function.code.Has frame.pc i ∧ i.opcode = .call ∧
              p.functions[i.index]? = some callee ∧
              after.stack.visible < (profiler.version i.index callee u).arity) := by
  obtain ⟨f, found, -⟩ := arity_of_entryOf admitted
  obtain ⟨bounds, -, orderly, running⟩ := underway_orderly p profiler hosted.balanced
    hosted.capacity found fuel arguments s
  refine ⟨bounds, orderly, fun t reached goes => ?_⟩
  obtain ⟨balanced, ground, booked⟩ := running t reached goes
  obtain ⟨frame, callers, frames⟩ := List.exists_cons_of_ne_nil balanced.1
  have inside : frame.pc ≤ frame.function.instructionCount := by
    have nested := booked.nested
    rw [frames] at nested
    exact nested.1.inside
  refine ⟨frame, callers, frames, ?_, returnsImplicitly_iff booked balanced frames t,
    fun u after => step_underflow booked balanced frames⟩
  exact (Code.recordAt?_eq_none_iff frame.pc).trans
    ⟨fun past => Nat.le_antisymm inside past, fun ends => Nat.le_of_eq ends.symm⟩

/-- A program whose first function has a byte behind its only instruction. -/
def trailingProgram : Program where
  intConstants := #[5]
  floatConstants := #[]
  functions := #[
    .make "main" [] .void 1 ⟨(Code.ofList [.make .call 1]).bytes.push 0x60⟩,
    .make "five" [] .int 2 (.ofList [.make .pushInt 0, .make .ret 0])]
  entry := "main"

/-- The frame of the first function, behind its call. -/
def trailingFrame : Frame :=
  { Frame.make trailingProgram.functions[0]! 0 none 0 with pc := 1 }

/-- The first function returns implicitly, although there is a byte left. -/
theorem orderly_underway_trailingProgram :
    ∃ reached, entryOf trailingProgram "main" [] = .ok 0 ∧
      underway trailingProgram Profiler.none 3 0 [] () (create {}) = .running () reached ∧
      reached.frames = [trailingFrame] ∧ trailingFrame.function.code.bytes.size = 5 ∧
      Orderly reached ∧
      ReturnsImplicitly reached (step trailingProgram Profiler.none () reached) := by
  let reached := (underway trailingProgram Profiler.none 3 0 [] () (create {})).machine
  have admitted : entryOf trailingProgram "main" [] = .ok 0 := by decide +kernel
  have ran : underway trailingProgram Profiler.none 3 0 [] () (create {}) = .running () reached :=
    running_of_outcome?_eq_none (by decide +kernel)
  have frames : reached.frames = [trailingFrame] := by decide +kernel
  obtain ⟨-, orderly, running⟩ := orderly_underway (.created {}) admitted Profiler.none 3 ()
  obtain ⟨frame, callers, innermost, -, implicit, -⟩ := running () reached ran
  obtain ⟨rfl, -⟩ := List.cons.inj (frames.symm.trans innermost)
  exact ⟨reached, admitted, ran, frames, by decide +kernel, orderly,
    implicit.mpr (by decide +kernel)⟩

end Machine

end HotPath
