import HotPath.Proofs.Fusion.Span

/-!
# Tiering is invisible

A tiered execution may enter a fused version wherever the program has a call. It is
compared with the plain execution, which never does. The two keep in step:
`Tracks` relates where they are, frame by frame, and everything that an operation
sees is the same. One step of the tiered execution is one step of the plain one, or
the four of a span; only there can the plain execution run out of room for an
operand on its own.

`step_tracks` is the simulation of one step and `run_tracks` that of a run.
-/

namespace HotPath

/-- Fusing a function succeeds and gives this one for it. -/
def Function.FusesTo (p : Program) (f fused : Function) : Prop :=
  ∃ fusion, f.fuse p = .ok fusion ∧ fused = fusion.function

/-- A version of a function is the function or what fusing gives for it. -/
def Function.HasVersion (p : Program) (f version : Function) : Prop :=
  version = f ∨ f.FusesTo p version

/-- A version takes the same arguments and has as many slots. -/
theorem Function.HasVersion.shape {p : Program} {f version : Function}
    (isVersion : f.HasVersion p version) :
    version.arity = f.arity ∧ version.localCount = f.localCount := by
  rcases isVersion with rfl | ⟨fusion, fused, rfl⟩
  · exact ⟨rfl, rfl⟩
  · rcases Fusion.aligned_of_fuse fused with unchanged | ⟨segments, alignment⟩
    · rw [unchanged]
      exact ⟨rfl, rfl⟩
    · rw [alignment.same]
      exact ⟨rfl, rfl⟩

namespace Profiler

variable {σ : Type}

/-- The states that a profiler can come to when it is told of calls of a program. -/
inductive Reaches (profiler : Profiler σ) (p : Program) (s : σ) : σ → Prop where
  | start : Reaches profiler p s s
  | recorded {t : σ} (earlier : Reaches profiler p s t) {index : Nat} {f : Function}
    (found : p.functions[index]? = some f) : Reaches profiler p s (profiler.recordCall index f t)

/-- From a state on, a profiler offers nothing for a function but what fusing gives for it. -/
def OffersFusions (profiler : Profiler σ) (p : Program) (s : σ) : Prop :=
  ∀ t, profiler.Reaches p s t → ∀ index f version, p.functions[index]? = some f →
    profiler.replacement? index t = some version → f.FusesTo p version

/-- What is reached after a call has been reported is reached from before it. -/
theorem Reaches.of_recorded {p : Program} {profiler : Profiler σ} {s t : σ} {index : Nat}
    {f : Function} (found : p.functions[index]? = some f)
    (reached : profiler.Reaches p (profiler.recordCall index f s) t) : profiler.Reaches p s t := by
  induction reached with
  | start => exact .recorded .start found
  | recorded _ other ih => exact .recorded ih other

/-- A profiler that offers fusions only goes on to do so when a call has been reported. -/
theorem OffersFusions.recorded {p : Program} {profiler : Profiler σ} {s : σ} {index : Nat}
    {f : Function} (offers : profiler.OffersFusions p s) (found : p.functions[index]? = some f) :
    profiler.OffersFusions p (profiler.recordCall index f s) :=
  fun t reached => offers t (reached.of_recorded found)

/-- Without a profiler no versions are offered. -/
theorem none_offersFusions (p : Program) (s : σ) : Profiler.none.OffersFusions p s := by
  intro _ _ _ _ _ _ offered
  cases offered

end Profiler

namespace Machine

open HotPath.Action

/-- Two frames of versions of one function have gone equally far. -/
inductive Place (p : Program) (plain tiered : Function) : (pc tieredPc : Nat) → Prop where
  | same (equal : tiered = plain) (pc : Nat) : Place p plain tiered pc pc
  | aligned {segments : List Segment} (fuses : plain.FusesTo p tiered)
    (alignment : Fusion.Aligned p segments plain tiered) {k : Nat}
    (inside : k ≤ segments.length) :
    Place p plain tiered (Segment.startOf segments k) k

/-- Two functions stand at the same address of the same code, or at addresses that line up. -/
theorem Place.same_or_aligned {p : Program} {plain tiered : Function} {pc tieredPc : Nat}
    (place : Place p plain tiered pc tieredPc) :
    (tiered = plain ∧ tieredPc = pc) ∨
      ∃ segments, plain.FusesTo p tiered ∧ Fusion.Aligned p segments plain tiered ∧
        pc = Segment.startOf segments tieredPc ∧ tieredPc ≤ segments.length := by
  cases place with
  | same equal => exact .inl ⟨equal, rfl⟩
  | aligned fuses alignment inside => exact .inr ⟨_, fuses, alignment, rfl, inside⟩

/-- A version starts where the function starts. -/
theorem place_zero {p : Program} {f version : Function} (isVersion : f.HasVersion p version) :
    Place p f version 0 0 := by
  rcases isVersion with equal | ⟨fusion, fused, rfl⟩
  · exact .same equal 0
  · rcases Fusion.aligned_of_fuse fused with unchanged | ⟨segments, alignment⟩
    · exact .same unchanged 0
    · have start := Place.aligned ⟨fusion, fused, rfl⟩ alignment (Nat.zero_le segments.length)
      rwa [Segment.startOf_zero] at start

/-- Two frames agree apart from their versions and where these are. -/
structure FrameTracks (p : Program) (plain tiered : Frame) : Prop where
  index : tiered.index = plain.index
  base : tiered.base = plain.base
  place : Place p plain.function tiered.function plain.pc tiered.pc

/-- The callers of two frames agree once they go on where the frames return to. Until then each
caller stands at its call. No caller has operands above the base of the frame that it has
called. -/
inductive CallersTrack (p : Program) :
    (base : Nat) → (returnAddress tieredReturn : Option Nat) → List Frame → List Frame → Prop where
  | outermost (base : Nat) : CallersTrack p base none none [] []
  | called {base address tieredAddress : Nat} {plain tiered : Frame}
    {callers tieredCallers : List Frame}
    (resumed : FrameTracks p { plain with pc := address } { tiered with pc := tieredAddress })
    (locals : tiered.locals = plain.locals) (low : plain.base ≤ base)
    (rest : CallersTrack p plain.base plain.returnAddress tiered.returnAddress callers
      tieredCallers) :
    CallersTrack p base (some address) (some tieredAddress) (plain :: callers)
      (tiered :: tieredCallers)

/-- Two executions have counted the same calls, and the tiered one no more instructions. -/
structure CountsTrack (plain tiered : ExecutionCounts) : Prop where
  calls : tiered.calls = plain.calls
  deepest : tiered.deepest = plain.deepest
  instructions : tiered.instructions ≤ plain.instructions

/-- The surroundings of a core agree. -/
structure Tracks (p : Program) (plain tiered : Surroundings) : Prop where
  frame : FrameTracks p plain.frame tiered.frame
  callers : CallersTrack p plain.frame.base plain.frame.returnAddress tiered.frame.returnAddress
    plain.callers.frames tiered.callers.frames
  counts : CountsTrack plain.counts tiered.counts

/-- Everything that can be seen of two machines from outside is the same. -/
structure Alike (plain tiered : Machine) : Prop where
  limits : tiered.limits = plain.limits
  heap : tiered.heap = plain.heap
  stack : tiered.stack = plain.stack
  slots : tiered.frames.map Frame.locals = plain.frames.map Frame.locals
  output : tiered.output = plain.output
  counts : CountsTrack plain.counts tiered.counts

/-- The present frame sees the operands from its base on. -/
structure Seated (c : Core) (s : Surroundings) : Prop where
  base : s.frame.base = c.stack.base
  visible : c.stack.base ≤ c.stack.entries.size

/-- A running tiered machine and a running plain one keep in step. -/
def InStep (p : Program) (plain tiered : Machine) : Prop :=
  ∃ c s t, plain = Core.plug c s ∧ tiered = Core.plug c t ∧ Tracks p s t ∧ Seated c s

section Relations

variable {p : Program} {s t : Surroundings}

/-- The slots of the callers are the same. -/
theorem CallersTrack.slots {base : Nat} {returnAddress tieredReturn : Option Nat}
    {callers tieredCallers : List Frame}
    (track : CallersTrack p base returnAddress tieredReturn callers tieredCallers) :
    tieredCallers.map Frame.locals = callers.map Frame.locals := by
  induction track with
  | outermost => rfl
  | called resumed locals low rest ih => rw [List.map_cons, List.map_cons, locals, ih]

/-- There are as many callers on either side. -/
theorem CallersTrack.length_eq {base : Nat} {returnAddress tieredReturn : Option Nat}
    {callers tieredCallers : List Frame}
    (track : CallersTrack p base returnAddress tieredReturn callers tieredCallers) :
    tieredCallers.length = callers.length := by
  have lengths := congrArg List.length track.slots
  simpa using lengths

/-- Machines with the same core are alike when their callers have the same slots, wherever the
frames stand. -/
theorem alike_plug (slots : t.callers.frames.map Frame.locals = s.callers.frames.map Frame.locals)
    (counts : CountsTrack s.counts t.counts) (c : Core) : Alike (c.plug s) (c.plug t) where
  limits := rfl
  heap := rfl
  stack := rfl
  slots := by rw [Core.frames_plug, Core.frames_plug, List.map_cons, List.map_cons, slots]
  output := rfl
  counts := counts

/-- Machines with the same core and surroundings that agree are alike. -/
theorem Tracks.alike (track : Tracks p s t) (c : Core) : Alike (c.plug s) (c.plug t) :=
  alike_plug track.callers.slots track.counts c

/-- Frames that agree still do when they have been sent to places that belong together. -/
theorem Tracks.goto (track : Tracks p s t) {address tieredAddress : Nat}
    (place : Place p s.frame.function t.frame.function address tieredAddress) :
    Tracks p (s.goto address) (t.goto tieredAddress) where
  frame := ⟨track.frame.index, track.frame.base, place⟩
  callers := track.callers
  counts := track.counts

/-- Surroundings still agree when the plain execution has counted at least as many
instructions. -/
theorem Tracks.counted (track : Tracks p s t) {count tieredCount : Nat}
    (few : tieredCount ≤ count) : Tracks p (s.counted count) (t.counted tieredCount) where
  frame := track.frame
  callers := track.callers
  counts := ⟨track.counts.calls, track.counts.deepest,
    Nat.add_le_add track.counts.instructions few⟩

/-- Machines in step are alike. -/
theorem InStep.alike {plain tiered : Machine} (inStep : InStep p plain tiered) :
    Alike plain tiered := by
  obtain ⟨c, s, t, rfl, rfl, track, _⟩ := inStep
  exact track.alike c

/-- Machines that are alike hold the same values. -/
theorem Alike.held {plain tiered : Machine} (alike : Alike plain tiered) :
    tiered.held = plain.held := by
  have slots : tiered.frames.flatMap (fun f => f.locals.slots.toList) =
      plain.frames.flatMap fun f => f.locals.slots.toList := by
    have mapped := congrArg (List.flatMap fun l : Locals => l.slots.toList) alike.slots
    rwa [List.flatMap_map, List.flatMap_map] at mapped
  rw [Machine.held, Machine.held, slots, alike.stack]

/-- Machines that are alike stay so when they are unwound. -/
theorem Alike.unwind {plain tiered : Machine} (alike : Alike plain tiered) :
    Alike plain.unwind tiered.unwind where
  limits := alike.limits
  heap := by
    simp only [Machine.unwind, alike.held, alike.heap]
  stack := by
    simp only [Machine.unwind, alike.stack]
  slots := rfl
  output := alike.output
  counts := alike.counts

end Relations

/-- Where two versions of a function send control. -/
inductive Leads (place : Nat → Nat → Prop) : Transfer → Transfer → Prop where
  | next : Leads place .next .next
  | goto {address tieredAddress : Nat} (places : place address tieredAddress) :
    Leads place (.goto address) (.goto tieredAddress)
  | call (index : Nat) : Leads place (.call index) (.call index)
  | leave (value : Option Value) : Leads place (.leave value) (.leave value)

/-- Two transfers to the same place lead to it. -/
theorem Leads.refl {place : Nat → Nat → Prop} {transfer : Transfer}
    (stays : ∀ address, transfer = .goto address → place address address) :
    Leads place transfer transfer := by
  cases transfer with
  | next => exact .next
  | goto address => exact .goto (stays address rfl)
  | call index => exact .call index
  | leave value => exact .leave value

/-- Two instructions do the same to every core, up to the addresses that they send control to. -/
def Agree (place : Nat → Nat → Prop) (plain tiered : Action Machine Transfer) : Prop :=
  ∀ c, (∃ transfer tieredTransfer after, Core.Within c (.ok transfer after) ∧
      Leads place transfer tieredTransfer ∧
      (∀ s, plain (Core.plug c s) = .ok transfer (after.plug s)) ∧
      ∀ s, tiered (Core.plug c s) = .ok tieredTransfer (after.plug s)) ∨
    ∃ fault after, (∀ s, plain (Core.plug c s) = .error fault (Core.plug after s)) ∧
      ∀ s, tiered (Core.plug c s) = .error fault (after.plug s)

namespace Agree

variable {place : Nat → Nat → Prop}

/-- One instruction agrees with itself if control goes on at places that belong together. -/
theorem of_local {action : Action Machine Transfer} (spec : Local action)
    (stays : ∀ m address after, action m = .ok (.goto address) after → place address address) :
    Agree place action action := by
  intro c
  obtain ⟨result, within, same⟩ := spec c
  cases result with
  | ok transfer after =>
    refine .inl ⟨transfer, transfer, after, within, ?_, same, same⟩
    refine .refl fun address goes => ?_
    subst goes
    -- Any surroundings will do: the instruction goes to the same address in all of them.
    exact stays _ address _ (same ⟨default, .empty, {}⟩)
  | error fault after => exact .inr ⟨fault, after, same, same⟩

/-- Two jumps agree that lead to places that belong together. -/
theorem jump (condition : Condition) {target tieredTarget : Nat}
    (places : place target tieredTarget) :
    Agree place (jump condition (.ok target)) (jump condition (.ok tieredTarget)) := by
  intro c
  rw [jump_eq, jump_eq]
  obtain ⟨result, within, same⟩ := takes_local condition c
  cases result with
  | ok taken after =>
    refine .inl ⟨if taken then .goto target else .next,
      if taken then .goto tieredTarget else .next, after, within, ?_, ?_, ?_⟩
    · cases taken with
      | true => exact .goto places
      | false => exact .next
    · intro s
      rw [bind_of_ok (same s)]
      rfl
    · intro s
      rw [bind_of_ok (same s)]
      rfl
  | error fault after =>
    refine .inr ⟨fault, after, ?_, ?_⟩
    · intro s
      rw [bind_of_error (same s)]
    · intro s
      rw [bind_of_error (same s)]

end Agree

/-- What one instruction of the plain execution leads to, and what one of the tiered execution
leads to. -/
inductive Paired (p : Program) : EStateM.Result Fault Machine Progress →
    EStateM.Result Fault Machine Progress → Prop where
  | running {plain tiered : Machine} (inStep : InStep p plain tiered) :
    Paired p (.ok .running plain) (.ok .running tiered)
  | calling {index : Nat} {callee : Function} (found : p.functions[index]? = some callee)
    {c : Core} {s t : Surroundings} {returnAddress tieredReturn : Nat} (track : Tracks p s t)
    (returns : Place p s.frame.function t.frame.function returnAddress tieredReturn)
    (seated : Seated c s) :
    Paired p (.ok (.calling index callee returnAddress) (c.plug s))
      (.ok (.calling index callee tieredReturn) (c.plug t))
  | finished (value : Option Value) {plain tiered : Machine} (alike : Alike plain tiered) :
    Paired p (.ok (.finished value) plain) (.ok (.finished value) tiered)
  | faulted (fault : Fault) {plain tiered : Machine} (alike : Alike plain tiered) :
    Paired p (.error fault plain) (.error fault tiered)

section Instructions

variable {p : Program} {c : Core} {s t : Surroundings}

/-- What stays above the base stays seated. -/
theorem Seated.within {α : Type} {answer : α} {after : Core} (seated : Seated c s)
    (within : Core.Within c (.ok answer after)) : Seated after s where
  base := seated.base.trans within.1.symm
  visible := within.1 ▸ within.2 seated.visible

/-- The caller of a frame that has been left goes on where the frame returns to. -/
theorem handOver_tracks {limits : Limits} {heap : Heap} {stack : OperandStack} {plain tiered : Frame}
    {callers tieredCallers : CallStack} {output : Array String}
    {counts tieredCounts : ExecutionCounts}
    (track : CallersTrack p plain.base plain.returnAddress tiered.returnAddress callers.frames
      tieredCallers.frames)
    (above : plain.base ≤ stack.entries.size) (counted : CountsTrack counts tieredCounts)
    (value : Option Value) :
    Paired p (handOver plain value ⟨limits, heap, stack, callers, output, counts⟩)
      (handOver tiered value ⟨limits, heap, stack, tieredCallers, output, tieredCounts⟩) := by
  obtain ⟨function, index, plainLocals, pc, returnAddress, base⟩ := plain
  obtain ⟨tieredFunction, tieredIndex, tieredLocals, tieredPc, tieredReturn, tieredBase⟩ := tiered
  obtain ⟨frames, depth, rfl⟩ := callers
  obtain ⟨tieredFrames, tieredDepth, rfl⟩ := tieredCallers
  dsimp only at track above
  cases track with
  | outermost =>
    exact .finished value ⟨rfl, rfl, rfl, rfl, rfl, counted⟩
  | @called _ address tieredAddress caller tieredCaller outer tieredOuter frame locals low rest =>
    let core : Core := ⟨limits, heap, stack.setBase caller.base, caller.locals, output⟩
    let around : Surroundings :=
      ⟨{ caller with pc := address }, ⟨outer, outer.length, rfl⟩, counts⟩
    let tieredAround : Surroundings :=
      ⟨{ tieredCaller with pc := tieredAddress }, ⟨tieredOuter, tieredOuter.length, rfl⟩,
        tieredCounts⟩
    have going : Tracks p around tieredAround := ⟨frame, rest, counted⟩
    have seated : Seated core around := ⟨rfl, Nat.le_trans low above⟩
    have sameBase : tieredCaller.base = caller.base := frame.base
    have resumed : resumeCaller ⟨function, index, plainLocals, pc, some address, base⟩
        ⟨limits, heap, stack, ⟨caller :: outer, _, rfl⟩, output, counts⟩ =
          .ok true (core.plug around) := rfl
    have tieredResumed : resumeCaller
        ⟨tieredFunction, tieredIndex, tieredLocals, tieredPc, some tieredAddress, tieredBase⟩
        ⟨limits, heap, stack, ⟨tieredCaller :: tieredOuter, _, rfl⟩, output, tieredCounts⟩ =
          .ok true (core.plug tieredAround) := by
      simp only [core, tieredAround, Core.plug, ← locals, ← sameBase]
      rfl
    rw [handOver, handOver, bind_of_ok resumed, bind_of_ok tieredResumed, if_pos rfl]
    cases value with
    | none => exact .running ⟨core, around, tieredAround, rfl, rfl, going, seated⟩
    | some value =>
      obtain ⟨result, within, pushed⟩ := push_local value core
      cases result with
      | ok _ after =>
        dsimp only
        rw [bind_of_ok (pushed around), bind_of_ok (pushed tieredAround)]
        exact .running ⟨after, around, tieredAround, rfl, rfl, going, seated.within within⟩
      | error fault after =>
        dsimp only
        rw [bind_of_error (pushed around), bind_of_error (pushed tieredAround)]
        exact .faulted fault (going.alike after)

/-- Leaving a frame gives back the same from both. -/
theorem leave_tracks (track : Tracks p s t) (seated : Seated c s) {value : Option Value}
    (balanced : (c.plug s).heap.Balanced (value.toList ++ (c.plug s).held)) :
    Paired p (leave value (c.plug s)) (leave value (c.plug t)) := by
  let frame : Frame := { s.frame with locals := c.locals }
  let tieredFrame : Frame := { t.frame with locals := c.locals }
  obtain ⟨between, after, slotsReleased, operandsReleased, _⟩ := frame_released balanced
  have slots : Heap.releaseEach tieredFrame.locals.slots.toList c.heap = .ok () between :=
    slotsReleased
  have base : tieredFrame.base = frame.base := track.frame.base
  have operands : Heap.releaseEach (c.stack.above tieredFrame.base) between = .ok () after := by
    rw [base]
    exact operandsReleased
  have left : leave value (c.plug s) = handOver frame value
      ⟨c.limits, after, below c.stack frame, s.callers, c.output, s.counts⟩ :=
    leave_of_released slotsReleased operandsReleased value
  have tieredLeft : leave value (c.plug t) = handOver tieredFrame value
      ⟨c.limits, after, below c.stack tieredFrame, t.callers, c.output, t.counts⟩ :=
    leave_of_released slots operands value
  have same : below c.stack tieredFrame = below c.stack frame := by
    simp only [below, base]
  have above : frame.base ≤ (below c.stack frame).entries.size := by
    simp only [below, Array.size_shrink, frame, seated.base]
    exact Nat.le_min.mpr ⟨Nat.le_refl _, seated.visible⟩
  rw [left, tieredLeft, same]
  exact handOver_tracks track.callers above track.counts value

/-- Control goes on at places that belong together. -/
theorem proceed_tracks (track : Tracks p s t) (seated : Seated c s)
    {transfer tieredTransfer : Transfer}
    (leads : Leads (Place p s.frame.function t.frame.function) transfer tieredTransfer)
    (balanced : Holder.Balanced (c.plug s) transfer.inHand) {address tieredAddress : Nat}
    (next : Place p s.frame.function t.frame.function (address + 1) (tieredAddress + 1)) :
    Paired p (proceed p address transfer (c.plug s))
      (proceed p tieredAddress tieredTransfer (c.plug t)) := by
  have goes {target tieredTarget : Nat}
      (places : Place p s.frame.function t.frame.function target tieredTarget) :
      InStep p (c.plug (s.goto target)) (c.plug (t.goto tieredTarget)) :=
    ⟨c, s.goto target, t.goto tieredTarget, rfl, rfl, track.goto places,
      ⟨seated.base, seated.visible⟩⟩
  cases leads with
  | next => exact .running (goes next)
  | goto places => exact .running (goes places)
  | call index =>
    cases found : p.functions[index]? with
    | none =>
      have refused (address : Nat) (m : Machine) :
          proceed p address (.call index) m = .error (.invalidFunctionIndex index) m := by
        simp only [proceed, found, throw_apply]
      rw [refused, refused]
      exact .faulted _ (track.alike c)
    | some callee =>
      have calls (address : Nat) (m : Machine) :
          proceed p address (.call index) m = .ok (.calling index callee (address + 1)) m := by
        simp only [proceed, found, pure_apply]
      rw [calls, calls]
      exact .calling found track next seated
  | leave value => exact leave_tracks track seated (balanced_iff.mp balanced).2

/-- Two instructions that agree are executed alike. -/
theorem advance_tracks {i j : Instruction} (here : s.frame.function.code.Has s.frame.pc i)
    (there : t.frame.function.code.Has t.frame.pc j) (track : Tracks p s t) (seated : Seated c s)
    (balanced : Holder.Balanced (c.plug s) [])
    (next : Place p s.frame.function t.frame.function (s.frame.pc + 1) (t.frame.pc + 1))
    (agree : Agree (Place p s.frame.function t.frame.function)
      (perform p i s.frame.pc s.frame.function.code.instructionCount)
      (perform p j t.frame.pc t.frame.function.code.instructionCount)) :
    Paired p (advance p (c.plug s)) (advance p (c.plug t)) := by
  have counted : Tracks p (s.counted 1) (t.counted 1) := track.counted (Nat.le_refl 1)
  rw [advance_eq here, advance_eq there]
  rcases agree c with ⟨transfer, tieredTransfer, after, within, leads, performed, tieredPerformed⟩ |
    ⟨fault, after, failed, tieredFailed⟩
  · have begun : Holder.Balanced (c.plug (s.counted 1)) [] := by
      exact balanced_iff.mpr ⟨List.cons_ne_nil _ _, (balanced_iff.mp balanced).2⟩
    have kept := perform_conserves p i s.frame.pc s.frame.function.code.instructionCount
      (c.plug (s.counted 1)) [] begun
    rw [performed] at kept
    rw [bind_of_ok (performed _), bind_of_ok (tieredPerformed _)]
    exact proceed_tracks counted (Seated.within ⟨seated.base, seated.visible⟩ within) leads
      (by simpa using kept.1) next
  · rw [bind_of_error (failed _), bind_of_error (tieredFailed _)]
    exact .faulted fault (counted.alike after)

/-- Two frames that stand at the same address of the same function. -/
theorem advance_tracks_same (equal : t.frame.function = s.frame.function)
    (stands : t.frame.pc = s.frame.pc) (track : Tracks p s t) (seated : Seated c s)
    (balanced : Holder.Balanced (c.plug s) []) :
    Paired p (advance p (c.plug s)) (advance p (c.plug t)) := by
  cases found : s.frame.function.code.recordAt? s.frame.pc with
  | none =>
    have tieredFound := found
    rw [← equal, ← stands] at tieredFound
    rw [advance_absent found, advance_absent tieredFound]
    exact leave_tracks track seated balanced.2
  | some record =>
    have tieredFound := found
    rw [← equal, ← stands] at tieredFound
    cases decodes : Instruction.decode record s.frame.pc with
    | error e =>
      have tieredDecodes := decodes
      rw [← stands] at tieredDecodes
      rw [advance_unreadable found decodes, advance_unreadable tieredFound tieredDecodes, stands]
      exact .faulted _ (track.alike c)
    | ok i =>
      have here : s.frame.function.code.Has s.frame.pc i := ⟨record, found, decodes⟩
      have there : t.frame.function.code.Has t.frame.pc i := by
        rw [equal, stands]
        exact here
      refine advance_tracks here there track seated balanced ?_ ?_
      · rw [stands]
        exact .same equal _
      · rw [equal, stands]
        exact .of_local (perform_local p i _ _) fun m address after _ => .same rfl address

section Aligned

variable {segments : List Segment} (fuses : s.frame.function.FusesTo p t.frame.function)
  (alignment : Fusion.Aligned p segments s.frame.function t.frame.function)
  (starts : s.frame.pc = Segment.startOf segments t.frame.pc)

include alignment starts in
/-- Both functions end together. -/
theorem advance_tracks_end (ends : t.frame.pc = segments.length) (track : Tracks p s t)
    (seated : Seated c s) (balanced : Holder.Balanced (c.plug s) []) :
    Paired p (advance p (c.plug s)) (advance p (c.plug t)) := by
  have past : s.frame.function.code.instructionCount ≤ s.frame.pc := by
    rw [alignment.plainCount, starts, ends]
  have tieredPast : t.frame.function.code.instructionCount ≤ t.frame.pc := by
    rw [alignment.fusedCount, ends]
  rw [advance_outside past, advance_outside tieredPast]
  exact leave_tracks track seated balanced.2

include fuses alignment starts in
/-- An instruction that fusing has kept. -/
theorem advance_tracks_kept {i : Instruction} (kept : segments[t.frame.pc]? = some (.kept i))
    (track : Tracks p s t) (seated : Seated c s) (balanced : Holder.Balanced (c.plug s) []) :
    Paired p (advance p (c.plug s)) (advance p (c.plug t)) := by
  obtain ⟨here, j, there, follows⟩ := alignment.kept kept
  rw [← starts] at here
  obtain ⟨inside, _⟩ := List.getElem?_eq_some_iff.mp kept
  refine advance_tracks here there track seated balanced ?next ?agree
  case next =>
    have next := Place.aligned fuses alignment inside
    rwa [Segment.startOf_succ kept, ← starts] at next
  case agree =>
    unfold Fusion.Follows at follows
    split at follows
    next jumps =>
      obtain ⟨condition, opcode⟩ := exists_condition_of_isJump jumps
      obtain ⟨same, target, within, leads, tieredLeads⟩ := follows
      rw [← starts] at leads
      have low : Segment.startOf segments target ≤ s.frame.function.code.instructionCount := by
        rw [alignment.plainCount]
        exact Segment.startOf_le within
      have tieredLow : target ≤ t.frame.function.code.instructionCount := by
        rwa [alignment.fusedCount]
      rw [perform_jump p opcode, jumpTarget_eq leads low, perform_jump p (same.trans opcode),
        jumpTarget_eq tieredLeads tieredLow]
      exact .jump condition (.aligned fuses alignment within)
    next straight =>
      have straight : i.opcode.isJump = false := by simpa using straight
      rw [follows, perform_eq_of_straight p straight t.frame.pc _ s.frame.pc]
      refine .of_local (perform_local p i _ _) fun m address after goes => ?_
      exact absurd goes (perform_neverGoes p straight _ _ m address after)

end Aligned

end Instructions

/-- An execution in progress and another one that keeps in step with it, or two that have ended
in the same way. -/
inductive Matches (p : Program) {σ : Type} (profiler : Profiler σ) :
    Status Unit (Option Value) → Status σ (Option Value) → Prop where
  | running {u : σ} (offers : profiler.OffersFusions p u) {plain tiered : Machine}
    (inStep : InStep p plain tiered) : Matches p profiler (.running () plain) (.running u tiered)
  | finished (answer : Option Value) (u : σ) {plain tiered : Machine}
    (alike : Alike plain tiered) :
    Matches p profiler (.finished answer () plain) (.finished answer u tiered)
  | faulted (fault : Fault) (u : σ) {plain tiered : Machine} (alike : Alike plain tiered) :
    Matches p profiler (.faulted fault () plain) (.faulted fault u tiered)

/-- The innermost frame runs a function that can be fused, and stands at one of the two pushes of a
span that fusing replaces. -/
def InsideSpan (p : Program) (m : Machine) : Prop :=
  ∃ frame ∈ m.frames.head?, ∃ fused segments k direction slot,
    frame.function.FusesTo p fused ∧ Fusion.Aligned p segments frame.function fused ∧
      segments[k]? = some (.fused direction slot) ∧
      Segment.startOf segments k ≤ frame.pc ∧ frame.pc ≤ Segment.startOf segments k + 1

/-- An execution has found no room for an operand of a span that fusing replaces. -/
def OverflowsInSpan {σ : Type} (p : Program) (status : Status σ (Option Value)) : Prop :=
  ∃ limit s m, status = .faulted (.stackOverflow limit) s m ∧ InsideSpan p m

section Steps

variable {p : Program} {σ : Type} {profiler : Profiler σ} {u : σ}

/-- The first states of versions of one function. -/
theorem entered_tracks {f version : Function} (isVersion : f.HasVersion p version)
    {plain tiered : Machine} (alike : Alike plain tiered) (index : Nat)
    {returnAddress tieredReturn : Option Nat} {below : Array Value}
    (callers : CallersTrack p below.size returnAddress tieredReturn plain.frames tiered.frames)
    (arguments : Array Value) :
    InStep p (entered index f returnAddress plain below arguments)
      (entered index version tieredReturn tiered below arguments) := by
  have depth : tiered.depth = plain.depth := by
    rw [tiered.depth_eq_length, plain.depth_eq_length, callers.length_eq]
  unfold entered
  rw [alike.limits, alike.heap, alike.stack, alike.output, isVersion.shape.2, depth]
  refine ⟨_, _, _, rfl, rfl, ⟨⟨rfl, rfl, place_zero isVersion⟩, callers, ?_⟩, ⟨rfl, Nat.le_refl _⟩⟩
  constructor
  case calls => exact congrArg Nat.succ alike.counts.calls
  case deepest => exact congrArg (max · (plain.depth + 1)) alike.counts.deepest
  case instructions => exact alike.counts.instructions

/-- Entering versions of one function. -/
theorem enter_tracks {f version : Function} (isVersion : f.HasVersion p version)
    {plain tiered : Machine} (alike : Alike plain tiered) (index : Nat)
    {returnAddress tieredReturn : Option Nat}
    (callers : ∀ base, plain.stack.base ≤ base →
      CallersTrack p base returnAddress tieredReturn plain.frames tiered.frames)
    (visible : plain.stack.base ≤ plain.stack.entries.size) :
    (∃ fault, enter index f returnAddress plain = .error fault plain ∧
      enter index version tieredReturn tiered = .error fault tiered) ∨
    ∃ after tieredAfter, enter index f returnAddress plain = .ok () after ∧
      enter index version tieredReturn tiered = .ok () tieredAfter ∧
      InStep p after tieredAfter := by
  have depth : tiered.depth = plain.depth := by
    rw [tiered.depth_eq_length, plain.depth_eq_length, (callers _ (Nat.le_refl _)).length_eq]
  have arity := isVersion.shape.1
  by_cases deep : plain.limits.callDepth ≤ plain.depth
  · have tieredDeep : tiered.limits.callDepth ≤ tiered.depth := by rwa [alike.limits, depth]
    refine .inl ⟨_, enter_deep deep index f returnAddress, ?_⟩
    rw [enter_deep tieredDeep, alike.limits]
  have room : plain.depth < plain.limits.callDepth := Nat.lt_of_not_le deep
  have tieredRoom : tiered.depth < tiered.limits.callDepth := by rwa [alike.limits, depth]
  by_cases few : plain.stack.visible < f.arity
  · have tieredFew : tiered.stack.visible < version.arity := by rwa [alike.stack, arity]
    exact .inl ⟨_, enter_starved room few index returnAddress,
      enter_starved tieredRoom tieredFew index tieredReturn⟩
  obtain ⟨below, arguments, entries, count, low⟩ :=
    plain.stack.exists_arguments visible (Nat.le_of_not_lt few)
  have tieredEntries : tiered.stack.entries = below ++ arguments := by rwa [alike.stack]
  have tieredLow : tiered.stack.base ≤ below.size := by rwa [alike.stack]
  exact .inr ⟨_, _, enter_eq room entries low count index returnAddress,
    enter_eq tieredRoom tieredEntries tieredLow (count.trans arity.symm) index tieredReturn,
    entered_tracks isVersion alike index (callers _ low) arguments⟩

/-- The four instructions of a span and the one that replaces them. -/
theorem step_tracks_span {c : Core} {s t : Surroundings} {segments : List Segment}
    {direction : Direction} {slot : BitVec 24}
    (fuses : s.frame.function.FusesTo p t.frame.function)
    (alignment : Fusion.Aligned p segments s.frame.function t.frame.function)
    (starts : s.frame.pc = Segment.startOf segments t.frame.pc)
    (fused : segments[t.frame.pc]? = some (.fused direction slot)) (track : Tracks p s t)
    (seated : Seated c s) (balanced : Holder.Balanced (c.plug s) [])
    (offers : profiler.OffersFusions p u) :
    ∃ count, 0 < count ∧ count ≤ 4 ∧
      (Matches p profiler (run p Profiler.none count () (c.plug s)) (step p profiler u (c.plug t)) ∨
        OverflowsInSpan p (run p Profiler.none count () (c.plug s))) := by
  obtain ⟨there, load, one, change, store, steps, rfl, first, second, third, last⟩ :=
    alignment.span fused
  rw [← starts] at first second third last
  have span := spanAt_of_direction? steps first second third last
  obtain ⟨inside, _⟩ := List.getElem?_eq_some_iff.mp fused
  have next : Place p s.frame.function t.frame.function (s.frame.pc + 4) (t.frame.pc + 1) := by
    have next := Place.aligned fuses alignment inside
    rwa [Segment.startOf_succ fused, ← starts] at next
  rcases span_runs span balanced seated.visible with ⟨n, found, ran⟩ |
    ⟨fault, count, few, refusal, ran⟩ | ⟨count, few, after, ran⟩
  · refine ⟨4, Nat.succ_pos 3, Nat.le_refl 4, .inl ?_⟩
    have stepped : step p profiler u (c.plug t) = .running u _ :=
      step_of_next there (perform_stepLocal (t.counted 1) _ _ rfl found)
    have going : Tracks p (s.passed 4) (t.passed 1) :=
      (track.counted (Nat.succ_le_succ (Nat.zero_le 3))).goto next
    rw [ran, stepped]
    exact .running offers ⟨_, s.passed 4, t.passed 1, rfl, rfl, going, ⟨seated.base, seated.visible⟩⟩
  · refine ⟨count + 1, Nat.succ_pos count, by omega, .inl ?_⟩
    have refused : step p profiler u (c.plug t) = .faulted fault u _ :=
      step_of_error there (perform_stepLocal_refused (t.counted 1) _ _ rfl refusal)
    have counts : CountsTrack ((s.passed count).counted 1).counts (t.counted 1).counts :=
      (track.counted (Nat.zero_le count)).counted (Nat.le_refl 1) |>.counts
    rw [ran, refused]
    exact .faulted _ _ (alike_plug (s := (s.passed count).counted 1) (t := t.counted 1)
      track.callers.slots counts c)
  · refine ⟨count + 1, Nat.succ_pos count, by omega, .inr ⟨_, _, _, ran, _, rfl, ?_⟩⟩
    refine ⟨_, _, _, _, _, fuses, alignment, fused, ?_, ?_⟩
    · rw [← starts]
      exact Nat.le_add_right _ _
    · rw [← starts]
      exact Nat.add_le_add_left (Nat.le_of_lt_succ few) _

/-- The version that a call enters. -/
theorem isVersion_of_offers {v : σ} (offers : profiler.OffersFusions p u) {index : Nat}
    {f : Function} (found : p.functions[index]? = some f) (reached : profiler.Reaches p u v) :
    f.HasVersion p (profiler.version index f v) := by
  unfold Profiler.version
  cases offered : profiler.replacement? index v with
  | none => exact .inl rfl
  | some version => exact .inr (offers v reached index f version found offered)

/-- Instructions that are executed alike are a step of both executions. -/
theorem step_tracks_paired {plain tiered : Machine}
    (paired : Paired p (advance p plain) (advance p tiered)) (offers : profiler.OffersFusions p u) :
    Matches p profiler (step p Profiler.none () plain) (step p profiler u tiered) := by
  unfold step
  generalize advance p plain = result at paired ⊢
  generalize advance p tiered = tieredResult at paired ⊢
  cases paired with
  | running inStep => exact .running offers inStep
  | finished value alike => exact .finished _ _ alike
  | faulted fault alike => exact .faulted _ _ alike
  | @calling index callee found c s t returnAddress tieredReturn track returns seated =>
    have isVersion := isVersion_of_offers offers found (.recorded .start found)
    have callers (base : Nat) (low : (c.plug s).stack.base ≤ base) :
        CallersTrack p base (some returnAddress) (some tieredReturn) (c.plug s).frames
          (c.plug t).frames :=
      .called ⟨track.frame.index, track.frame.base, returns⟩ rfl (seated.base ▸ low) track.callers
    rcases enter_tracks isVersion (track.alike c) index callers seated.visible with
      ⟨fault, failed, tieredFailed⟩ | ⟨after, tieredAfter, entered, tieredEntered, inStep⟩
    · have plainVersion : Profiler.none.version index callee () = callee := rfl
      dsimp only
      rw [plainVersion, failed, tieredFailed]
      exact .faulted _ _ (track.alike c)
    · have plainVersion : Profiler.none.version index callee () = callee := rfl
      dsimp only
      rw [plainVersion, entered, tieredEntered]
      exact .running (offers.recorded found) inStep

/-- One step of the tiered execution is one step of the plain one, or those of a span. -/
theorem step_tracks {plain tiered : Machine} (inStep : InStep p plain tiered)
    (balanced : Holder.Balanced plain []) (offers : profiler.OffersFusions p u) :
    ∃ count, 0 < count ∧ count ≤ 4 ∧
      (Matches p profiler (run p Profiler.none count () plain) (step p profiler u tiered) ∨
        OverflowsInSpan p (run p Profiler.none count () plain)) := by
  obtain ⟨c, s, t, rfl, rfl, track, seated⟩ := inStep
  have once (paired : Paired p (advance p (c.plug s)) (advance p (c.plug t))) :
      ∃ count, 0 < count ∧ count ≤ 4 ∧
        (Matches p profiler (run p Profiler.none count () (c.plug s)) (step p profiler u (c.plug t)) ∨
          OverflowsInSpan p (run p Profiler.none count () (c.plug s))) := by
    refine ⟨1, Nat.one_pos, Nat.le_add_left 1 3, .inl ?_⟩
    rw [run_one]
    exact step_tracks_paired paired offers
  rcases track.frame.place.same_or_aligned with ⟨equal, stands⟩ |
    ⟨segments, fuses, alignment, starts, inside⟩
  · exact once (advance_tracks_same equal stands track seated balanced)
  rcases Nat.eq_or_lt_of_le inside with ends | before
  · exact once (advance_tracks_end alignment starts ends track seated balanced)
  have here : segments[t.frame.pc]? = some segments[t.frame.pc] := List.getElem?_eq_getElem before
  generalize segments[t.frame.pc] = segment at here
  cases segment with
  | kept i => exact once (advance_tracks_kept fuses alignment starts here track seated balanced)
  | fused direction slot =>
      exact step_tracks_span fuses alignment starts here track seated balanced offers

/-- A run of the tiered execution is a run of the plain one, until that finds no room inside a
span. -/
theorem run_tracks (fuel : Nat) {plain tiered : Machine} (inStep : InStep p plain tiered)
    (balanced : Holder.Balanced plain []) (offers : profiler.OffersFusions p u) :
    ∃ count, count ≤ 4 * fuel ∧
      ((fuel ≤ count ∧
        Matches p profiler (run p Profiler.none count () plain) (run p profiler fuel u tiered)) ∨
      OverflowsInSpan p (run p Profiler.none count () plain)) := by
  induction fuel generalizing plain tiered u with
  | zero => exact ⟨0, Nat.le_refl _, .inl ⟨Nat.le_refl _, .running offers inStep⟩⟩
  | succ fuel ih =>
    obtain ⟨first, some, few, matched | overflows⟩ := step_tracks inStep balanced offers
    · have kept := run_keeps p Profiler.none first () balanced
      generalize stepped : step p profiler u tiered = tieredStatus at matched
      generalize ran : run p Profiler.none first () plain = plainStatus at matched kept
      cases matched with
      | running later inStep =>
        obtain ⟨others, bound, rest⟩ := ih inStep kept later
        refine ⟨first + others, by omega, ?_⟩
        rw [run_succ_of_running fuel stepped, run_add_of_running ran others]
        rcases rest with ⟨enough, matched⟩ | overflows
        · exact .inl ⟨by omega, matched⟩
        · exact .inr overflows
      | finished answer v alike =>
        refine ⟨first + fuel, by omega, .inl ⟨by omega, ?_⟩⟩
        rw [run_succ_of_ended (by rw [stepped]; rfl) fuel,
          run_add_of_ended (by rw [ran]; rfl) fuel, stepped, ran]
        exact .finished answer v alike
      | faulted fault v alike =>
        refine ⟨first + fuel, by omega, .inl ⟨by omega, ?_⟩⟩
        rw [run_succ_of_ended (by rw [stepped]; rfl) fuel,
          run_add_of_ended (by rw [ran]; rfl) fuel, stepped, ran]
        exact .faulted fault v alike
    · exact ⟨first, by omega, .inr overflows⟩

end Steps

end Machine

end HotPath
