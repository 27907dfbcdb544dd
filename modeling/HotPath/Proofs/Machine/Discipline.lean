import HotPath.Proofs.Machine.Starvation

/-!
# Calls and returns keep to their part of the stack

A call takes its arguments off the stack and hides the rest. As long as it is in progress,
whatever it and the functions that it calls execute, the frames that wait for it and the
entries below its base are as they were; its caller waits at the call. When it returns, its
caller is sent on behind the call, with exactly those entries and with one value on top if the
return was one with a value.

`Sheltered` is the invariant: `sheltered_step` preserves it over a step inside the call,
`During.sheltered` over all of them, and `call_discipline` puts it together with what a
step can do.
-/

namespace HotPath

/-- Frames on top of those that wait. The lowest of them has this base and goes back to this
address. -/
inductive Covers (base address : Nat) (waiting : List Frame) : List Frame → Prop where
  | callee {frame : Frame} (stands : frame.base = base)
    (back : frame.returnAddress = some address) : Covers base address waiting (frame :: waiting)
  | deeper (frame : Frame) {frames : List Frame} (covers : Covers base address waiting frames) :
    Covers base address waiting (frame :: frames)

namespace Covers

variable {base address : Nat} {waiting frames : List Frame}

/-- There is at least one frame on top. -/
theorem length_lt (covers : Covers base address waiting frames) :
    waiting.length < frames.length := by
  induction covers with
  | callee => exact Nat.lt_succ_self _
  | deeper frame _ ih => exact Nat.lt_succ_of_lt ih

/-- The innermost frame may go on to another address and change its slots. -/
theorem replaced {frame other : Frame} (covers : Covers base address waiting (frame :: frames))
    (stands : other.base = frame.base) (back : other.returnAddress = frame.returnAddress) :
    Covers base address waiting (other :: frames) := by
  cases covers with
  | callee low last => exact .callee (stands.trans low) (back.trans last)
  | deeper _ covers => exact .deeper other covers

/-- Without the innermost frame it is the turn of those that wait, or of one above them. -/
theorem tail {frame : Frame} (covers : Covers base address waiting (frame :: frames)) :
    (frames = waiting ∧ frame.base = base ∧ frame.returnAddress = some address) ∨
      Covers base address waiting frames := by
  cases covers with
  | callee stands back => exact .inl ⟨rfl, stands, back⟩
  | deeper _ covers => exact .inr covers

/-- A frame that waits among others has its operands below those of the frames above it. -/
theorem le_of_layered {ground height : Nat} (covers : Covers base address waiting frames)
    (layered : Layered ground height frames) : base ≤ Frame.floor ground frames := by
  induction covers generalizing height with
  | callee stands _ => exact Nat.le_of_eq stands.symm
  | @deeper frame frames covers ih =>
    have low := ih layered.2
    cases frames with
    | nil => cases covers
    | cons next rest => exact Nat.le_trans low layered.2.1

end Covers

namespace Machine

open HotPath.Action

/-- The caller and its callers are as they were, under the frames of the call, and so are the
lowest operands. The caller stands at the call, and the call goes back behind it. -/
structure Spares (caller : Frame) (callers : List Frame) (below : Array Value) (m : Machine) :
    Prop where
  covers : Covers below.size (caller.pc + 1) (caller :: callers) m.frames
  operands : m.stack.StandsOn below

/-- The caller goes on behind the call, with the operands that it had and with a value on top if
there is one. -/
structure Resumes (caller : Frame) (callers : List Frame) (below : Array Value)
    (value : Option Value) (m : Machine) : Prop where
  frames : m.frames = { caller with pc := caller.pc + 1 } :: callers
  entries : m.stack.entries = handed below value
  base : m.stack.base = caller.base

/-- What a step inside a call can lead to. -/
inductive Continues {σ : Type} (caller : Frame) (callers : List Frame) (below : Array Value)
    (t : σ) (m : Machine) : Status σ (Option Value) → Prop where
  | inside {u : σ} {next : Machine} (spares : Spares caller callers below next) :
    Continues caller callers below t m (.running u next)
  | faulted {fault : Fault} {u : σ} {next : Machine} (spares : Spares caller callers below next) :
    Continues caller callers below t m (.faulted fault u next)
  | returned {frame : Frame} (innermost : m.frames = frame :: caller :: callers)
    {value : Option Value} {left : Array Value} (departs : Departs frame m.stack value left)
    {next : Machine} (resumes : Resumes caller callers below value next) :
    Continues caller callers below t m (.running t next)

/-- The invariant of a call in progress. -/
structure Sheltered (ground : Nat) (caller : Frame) (callers : List Frame) (below : Array Value)
    (m : Machine) : Prop extends Spares caller callers below m where
  framed : Framed ground m
  balanced : Holder.Balanced m []

section Stands

variable {entries below : Array Value}

/-- Cutting the entries off at the height of the lowest ones leaves these. -/
theorem take_size_of_stands {operands : Array Value} (stands : entries = below ++ operands) :
    entries.take below.size = below := by
  rw [stands, Array.take_eq_extract, Array.extract_append_left, Array.extract_size]

/-- Cutting the entries off above the lowest ones leaves these where they are. -/
theorem take_of_stands {operands : Array Value} {height : Nat}
    (stands : entries = below ++ operands) (above : below.size ≤ height) :
    ∃ rest, entries.take height = below ++ rest := by
  refine ⟨operands.take (height - below.size), ?_⟩
  rw [stands, Array.take_eq_extract, Array.take_eq_extract, Array.extract_append,
    Array.extract_eq_self_of_le above, Nat.zero_sub]

/-- A value that is handed over lies above the lowest entries. -/
theorem handed_of_stands {operands : Array Value} (stands : entries = below ++ operands)
    (value : Option Value) : ∃ rest, handed entries value = below ++ rest := by
  cases value with
  | none => exact ⟨operands, stands⟩
  | some value => exact ⟨operands.push value, by rw [handed_some, stands, Array.push_append]⟩

end Stands

variable {σ : Type} {p : Program} {profiler : Profiler σ} {ground : Nat} {caller : Frame}
  {callers : List Frame} {below : Array Value}

/-- The operands of the callers are hidden. -/
theorem Sheltered.hidden {m : Machine} (sheltered : Sheltered ground caller callers below m) :
    below.size ≤ m.stack.base :=
  sheltered.framed.base ▸ sheltered.covers.le_of_layered sheltered.framed.layered

section Steps

variable {c : Core} {s : Surroundings}

/-- The return of a call is back at the caller. -/
theorem resumed_resumes {others : CallStack} (base : s.frame.base = below.size)
    (back : s.frame.returnAddress = some (caller.pc + 1)) (stands : c.stack.StandsOn below)
    (heap : Heap) (counts : ExecutionCounts) (value : Option Value) :
    Resumes caller others.frames below value
      (resumed c { s with counts } heap caller others value) := by
  obtain ⟨operands, entries⟩ := stands
  have kept : c.stack.entries.take s.frame.base = below := by
    rw [base, take_size_of_stands entries]
  constructor
  case frames => simp only [resumed, Core.frames_plug, back, Option.getD_some]
  case entries => simp only [resumed, Core.stack_plug, kept]
  case base => rfl

/-- A return inside the call keeps to it, and the return of the call itself is back at the
caller. -/
theorem departure_continues {t : σ} {value : Option Value} {left : Array Value}
    {status : Status σ (Option Value)} (spares : Spares caller callers below (c.plug s))
    (hidden : below.size ≤ s.frame.base) (departs : Departs s.frame c.stack value left)
    (departure : Departure t c s value status) :
    Continues caller callers below t (c.plug s) status := by
  obtain ⟨covers, operands, entries⟩ := spares
  rw [Core.frames_plug] at covers
  cases departure with
  | finished alone =>
    rw [alone] at covers
    rcases covers.tail with ⟨waiting, -, -⟩ | covers
    · cases waiting
    · cases covers
  | @resumed resumer others called heap evolves counts =>
    rw [called] at covers
    rcases covers.tail with ⟨waiting, base, back⟩ | covers
    · obtain ⟨rfl, rfl⟩ := List.cons.inj waiting
      have innermost : (c.plug s).frames =
          { s.frame with locals := c.locals } :: resumer :: others.frames := by
        rw [Core.frames_plug, called, CallStack.frames_push]
      exact .returned innermost (departs.of_same rfl rfl)
        (resumed_resumes base back ⟨operands, entries⟩ heap counts value)
    · obtain ⟨rest, taken⟩ := take_of_stands entries hidden
      exact .inside ⟨covers.replaced rfl rfl, handed_of_stands taken value⟩

/-- A step inside a call keeps to it or returns from it. -/
theorem sheltered_continues (t : σ) {m : Machine}
    (sheltered : Sheltered ground caller callers below m) :
    Continues caller callers below t m (step p profiler t m) := by
  obtain ⟨c, s, rfl⟩ := exists_plug sheltered.balanced.1
  have hidden : below.size ≤ c.stack.base := sheltered.hidden
  have base := sheltered.framed.base_plug
  have steps : Steps p profiler t c s (step p profiler t (c.plug s)) :=
    step_cases sheltered.framed sheltered.balanced t
  generalize step p profiler t (c.plug s) = status at steps ⊢
  cases steps with
  | stayed follows address =>
    exact .inside ⟨sheltered.covers.replaced rfl rfl,
      follows.stack.below below hidden sheltered.operands⟩
  | failed follows fault _ counted =>
    exact .faulted ⟨sheltered.covers.replaced rfl rfl,
      follows.stack.below below hidden sheltered.operands⟩
  | @entered i callee here opcode known u version reported enters left arguments entries visible
      count =>
    obtain ⟨operands, stands⟩ := sheltered.operands
    have kept : c.stack.entries.take left.size = left := take_size_of_stands entries
    obtain ⟨rest, taken⟩ := take_of_stands stands (Nat.le_trans hidden visible)
    exact .inside ⟨.deeper _ (sheltered.covers.replaced rfl rfl), rest, kept.symm.trans taken⟩
  | departed departs departure =>
    exact departure_continues sheltered.toSpares (base ▸ hidden) departs departure

/-- The invariant is preserved as long as the call has not returned. -/
theorem sheltered_step {t u : σ} {m next : Machine}
    (sheltered : Sheltered ground caller callers below m)
    (stepped : step p profiler t m = .running u next) (deeper : callers.length + 1 < next.depth) :
    Sheltered ground caller callers below next := by
  have continues : Continues caller callers below t m (step p profiler t m) :=
    sheltered_continues t sheltered
  obtain ⟨framed, -⟩ := step_framed p profiler t sheltered.framed sheltered.balanced
  have balanced := step_keeps p profiler t sheltered.balanced
  rw [stepped] at continues framed balanced
  cases continues with
  | inside spares => exact ⟨spares, framed, balanced⟩
  | returned innermost departs resumes =>
    rw [depth_eq_length, resumes.frames, List.length_cons] at deeper
    exact absurd deeper (Nat.lt_irrefl _)

/-- A call that can return does so, and its value finds room. -/
theorem sheltered_returns (t : σ) {m : Machine}
    (sheltered : Sheltered ground caller callers below m) {frame : Frame}
    (innermost : m.frames = frame :: caller :: callers) {value : Option Value}
    {left : Array Value} (departs : Departs frame m.stack value left) :
    ∃ next, step p profiler t m = .running t next ∧ Resumes caller callers below value next := by
  obtain ⟨c, s, rfl⟩ := exists_plug sheltered.balanced.1
  obtain ⟨same, waiting⟩ := List.cons.inj innermost
  have standing : Departs s.frame c.stack value left := by
    subst same
    exact departs.of_same rfl rfl
  have covers : Covers below.size (caller.pc + 1) (caller :: callers)
      ({ s.frame with locals := c.locals } :: s.callers.frames) := sheltered.covers
  have departure : Departure t c s value (step p profiler t (c.plug s)) :=
    step_of_departs p profiler sheltered.framed sheltered.balanced t standing
  generalize step p profiler t (c.plug s) = status at departure
  rcases covers.tail with ⟨-, base, back⟩ | covers
  · cases departure with
    | finished alone =>
      rw [alone] at waiting
      cases waiting
    | @resumed resumer others called heap evolves counts =>
      rw [called] at waiting
      obtain ⟨rfl, rfl⟩ := List.cons.inj waiting
      exact ⟨_, rfl, resumed_resumes base back sheltered.operands heap counts value⟩
  · have longer := covers.length_lt
    rw [waiting] at longer
    exact absurd longer (Nat.lt_irrefl _)

/-- A call that succeeds enters a version of the function that it names. -/
theorem entered_of_step {ground : Nat} (framed : Framed ground (c.plug s)) {i : Instruction}
    (here : s.frame.function.code.Has s.frame.pc i) (opcode : i.opcode = .call) {t u : σ}
    {after : Machine} (enters : step p profiler t (c.plug s) = .running u after) :
    ∃ (f : Function) (below given : Array Value), p.functions[i.index]? = some f ∧
      u = profiler.recordCall i.index f t ∧ c.stack.entries = below ++ given ∧
      c.stack.base ≤ below.size ∧ given.size = (profiler.version i.index f u).arity ∧
      after = entered i.index (profiler.version i.index f u) (some (s.frame.pc + 1))
        (c.plug (s.counted 1)) below given := by
  cases known : p.functions[i.index]? with
  | none =>
    rw [step_eq_conclude, advance_call_unknown here opcode known] at enters
    cases enters
  | some f =>
    rw [step_eq_conclude, advance_call here opcode rfl known, conclude] at enters
    let v := profiler.recordCall i.index f t
    rcases enter_cases (m := c.plug (s.counted 1)) framed.visible i.index
        (profiler.version i.index f v) (some (s.frame.pc + 1)) with
      ⟨fault, failed⟩ | ⟨below, given, entries, visible, count, entered⟩
    · rw [failed] at enters
      cases enters
    · rw [entered] at enters
      cases enters
      exact ⟨f, below, given, rfl, rfl, entries, visible, count, rfl⟩

end Steps

/-- The first state of a call. The arguments have moved from the operands to the first slots, the
other slots are empty, and the caller stands at the call and will go on behind it. -/
structure Begins (before after : Machine) (caller : Frame) (callers : List Frame) (index : Nat)
    (callee : Function) (below given : Array Value) : Prop where
  operands : before.stack.entries = below ++ given
  count : given.size = callee.arity
  frames : after.frames =
    { function := callee
      index
      locals := ⟨given ++ Array.replicate (callee.localCount - given.size) .null⟩
      pc := 0
      returnAddress := some (caller.pc + 1)
      base := below.size } :: caller :: callers
  entries : after.stack.entries = below
  base : after.stack.base = below.size

/-- The states of a call, from the first one up to its return. `depth` is the number of calls in
progress without it. -/
inductive During (p : Program) (profiler : Profiler σ) (depth : Nat) (t : σ) (start : Machine) :
    σ → Machine → Prop where
  | start : During p profiler depth t start t start
  | step {u v : σ} {m next : Machine} (earlier : During p profiler depth t start u m)
    (stepped : step p profiler u m = .running v next) (deeper : depth < next.depth) :
    During p profiler depth t start v next

/-- What a call has begun sheltered stays so for as long as it lasts. -/
theorem During.sheltered {t u : σ} {start m : Machine}
    (during : During p profiler (callers.length + 1) t start u m)
    (begins : Sheltered ground caller callers below start) :
    Sheltered ground caller callers below m := by
  induction during with
  | start => exact begins
  | step _ stepped deeper ih => exact sheltered_step ih stepped deeper

/-- What holds in every state of a call. -/
structure Disciplined (p : Program) (profiler : Profiler σ) (caller : Frame)
    (callers : List Frame) (below : Array Value) (t : σ) (m : Machine) : Prop where
  /-- Callers and their operands are as they were. -/
  spares : Spares caller callers below m
  /-- The operands of the callers are out of sight. -/
  hidden : below.size ≤ m.stack.base
  /-- The call goes on, faults or returns. -/
  continues : Continues caller callers below t m (step p profiler t m)
  /-- A return always finds room for its value. -/
  returns : ∀ frame value left, m.frames = frame :: caller :: callers →
    Departs frame m.stack value left →
      ∃ next, step p profiler t m = .running t next ∧ Resumes caller callers below value next
  /-- An instruction that finds too few operands in sight does not look further. -/
  starves : ∀ frame others i, m.frames = frame :: others → frame.function.code.Has frame.pc i →
    Starves i.takes m.stack.own →
      ∃ next, step p profiler t m = .faulted .stackUnderflow t next
  /-- Nor does a call that finds too few arguments. -/
  starvesCalls : ∀ frame others i f, m.frames = frame :: others →
    frame.function.code.Has frame.pc i → i.opcode = .call → p.functions[i.index]? = some f →
    m.depth < m.limits.callDepth →
    m.stack.visible < (profiler.version i.index f (profiler.recordCall i.index f t)).arity →
      ∃ u next, step p profiler t m = .faulted .stackUnderflow u next

/-- A call that shelters its caller keeps the discipline. -/
theorem Sheltered.disciplined {m : Machine} (sheltered : Sheltered ground caller callers below m)
    (t : σ) : Disciplined p profiler caller callers below t m := by
  constructor
  case spares => exact sheltered.toSpares
  case hidden => exact sheltered.hidden
  case continues => exact sheltered_continues t sheltered
  case returns =>
    intro frame value left innermost departs
    exact sheltered_returns t sheltered innermost departs
  case starves =>
    intro frame others i innermost here starves
    obtain ⟨c, s, rfl⟩ := exists_plug sheltered.balanced.1
    obtain ⟨rfl, rfl⟩ := List.cons.inj innermost
    exact step_underflows here sheltered.balanced starves t
  case starvesCalls =>
    intro frame others i f innermost here opcode known room few
    obtain ⟨c, s, rfl⟩ := exists_plug sheltered.balanced.1
    obtain ⟨rfl, rfl⟩ := List.cons.inj innermost
    exact step_call_underflows here opcode known room t few

/-- Calls and returns keep to their part of the stack. Take any state that a call from the host
reaches on any machine that a host can have, and a call instruction that succeeds there. The
function that it enters finds its arguments in its first slots. In every state up to its return
the callers and their operands are as they were, the caller at the call itself. The return sends
the caller on behind the call with these operands, and with a value on top if there is one. -/
theorem call_discipline {m : Machine} (hosted : Hosted m) {name : String}
    {arguments : List HostValue} {index : Nat} (admitted : entryOf p name arguments = .ok index)
    {s t u : σ} {fuel : Nat} {before after : Machine}
    (reached : underway p profiler fuel index arguments s m = .running t before) {caller : Frame}
    {callers : List Frame} (frames : before.frames = caller :: callers) {i : Instruction}
    (here : caller.function.code.Has caller.pc i) (opcode : i.opcode = .call)
    (enters : step p profiler t before = .running u after) :
    ∃ (f callee : Function) (below given : Array Value), p.functions[i.index]? = some f ∧
      callee = profiler.version i.index f u ∧
      Begins before after caller callers i.index callee below given ∧
      ∀ v during, During p profiler before.depth u after v during →
        Disciplined p profiler caller callers below v during := by
  obtain ⟨g, known, -⟩ := arity_of_entryOf admitted
  have balanced := underway_keeps p profiler fuel index arguments s hosted.balanced
  obtain ⟨framed, -⟩ := underway_framed p profiler fuel arguments s known hosted.balanced
  rw [reached] at balanced framed
  have later := step_keeps p profiler t balanced
  obtain ⟨divided, -⟩ := step_framed p profiler t framed balanced
  rw [enters] at later divided
  have depth : before.depth = callers.length + 1 := by
    rw [depth_eq_length, frames, List.length_cons]
  obtain ⟨c, s, rfl⟩ := exists_plug balanced.1
  obtain ⟨rfl, rfl⟩ := List.cons.inj frames
  obtain ⟨f, below, given, found, reported, entries, visible, count, rfl⟩ :=
    entered_of_step framed here opcode enters
  refine ⟨f, profiler.version i.index f u, below, given, found, rfl, ?_, ?_⟩
  · exact ⟨entries, count, rfl, rfl, rfl⟩
  · intro v during reaches
    have spares : Spares { s.frame with locals := c.locals } s.callers.frames below
        (entered i.index (profiler.version i.index f u) (some (s.frame.pc + 1))
          (c.plug (s.counted 1)) below given) :=
      ⟨.callee rfl rfl, #[], (Array.append_empty).symm⟩
    rw [depth] at reaches
    exact (reaches.sheltered ⟨spares, divided, later⟩).disciplined v

/-- A program that adds the square of one number to another one. -/
def squareProgram : Program where
  intConstants := #[7, 5]
  floatConstants := #[]
  functions := #[
    .make "main" [] .int 0
      (.ofList [.make .pushInt 0, .make .pushInt 1, .make .call 1, .make (.intBinary .add) 0,
        .make .ret 0]),
    .make "square" [⟨"n", .int⟩] .int 1
      (.ofList [.make .loadLocal 0, .make .loadLocal 0, .make (.intBinary .mul) 0,
        .make .ret 0])]
  entry := "main"

/-- The frame that calls, in the last state before it does. -/
def squareCaller : Frame :=
  { Frame.make squareProgram.functions[0]! 0 none 0 with pc := 2 }

/-- The call in `squareProgram` leaves one operand behind. -/
theorem call_discipline_squareProgram :
    ∃ before after, entryOf squareProgram "main" [] = .ok 0 ∧
      underway squareProgram Profiler.none 2 0 [] () (create {}) = .running () before ∧
      before.frames = [squareCaller] ∧ before.stack.entries = #[.int 7, .int 5] ∧
      squareCaller.function.code.Has squareCaller.pc (.make .call 1) ∧
      step squareProgram Profiler.none () before = .running () after ∧
      ∃ callee below given,
        Begins before after squareCaller [] 1 callee below given ∧
        ∀ v during, During squareProgram Profiler.none before.depth () after v during →
          Disciplined squareProgram Profiler.none squareCaller [] below v during := by
  let before := (underway squareProgram Profiler.none 2 0 [] () (create {})).machine
  have admitted : entryOf squareProgram "main" [] = .ok 0 := by decide +kernel
  have reached : underway squareProgram Profiler.none 2 0 [] () (create {}) =
      .running () before := running_of_outcome?_eq_none (by decide +kernel)
  have frames : before.frames = [squareCaller] := by decide +kernel
  have entries : before.stack.entries = #[.int 7, .int 5] := by decide +kernel
  have here : squareCaller.function.code.Has squareCaller.pc (.make .call 1) :=
    (Code.spells_ofList _).inside rfl
  have enters : step squareProgram Profiler.none () before =
      .running () (step squareProgram Profiler.none () before).machine :=
    running_of_outcome?_eq_none (by decide +kernel)
  obtain ⟨_, callee, below, given, _, _, begins, disciplined⟩ :=
    call_discipline (.created {}) admitted reached frames here rfl enters
  exact ⟨before, _, admitted, reached, frames, entries, here, enters, callee, below, given, begins,
    disciplined⟩

end Machine

end HotPath
