import HotPath.Proofs.Fusion.Refusals
import HotPath.Proofs.Machine.Composition
import HotPath.Proofs.Machine.Framing

/-!
# Code that is accepted is never left

Fusing checks a function as a whole before it runs; a machine checks each instruction when it
comes to it. The two checks ask for the same. A function is `Sealed` if it can be decoded and none
of its jumps leaves it, which is what fusing asks for. A machine in a sealed function can
read every record that is there and follow every jump, so what it faults with is
ordinary (`advance_ordinary`). Fusing seals what it makes as well, so this holds of both versions
of a function, in any program and in any state (`confined_of_fused`).
-/

namespace HotPath

open HotPath.Action

/-- A function can be decoded and none of its jumps leaves it. -/
def Function.Sealed (f : Function) : Prop :=
  ∃ instructions, f.code.decode = .ok instructions ∧
    ∀ address i, ¬ Fusion.Stray instructions address i

namespace Fusion

/-- Fusing takes sealed functions only, and makes sealed functions. -/
theorem sealed_of_fuse {p : Program} {f : Function} {fusion : Fusion}
    (fused : f.fuse p = .ok fusion) : f.Sealed ∧ fusion.function.Sealed :=
  ⟨exists_fuse_iff.mp ⟨fusion, fused⟩, exists_fuse_iff.mp ⟨_, fuse_again fused⟩⟩

end Fusion

namespace Function.Sealed

variable {f : Function} (sealed : f.Sealed)

include sealed

/-- Every record of a sealed function is an instruction. -/
theorem readable {address : Nat} {record : Record}
    (found : f.code.recordAt? address = some record) :
    ∃ i, Instruction.decode record address = .ok i := by
  obtain ⟨instructions, decoded, -⟩ := sealed
  have spells := Code.spells_of_decode decoded
  have inside := Code.lt_of_recordAt? found
  rw [spells.count] at inside
  obtain ⟨other, same, decodes⟩ := spells.inside (List.getElem?_eq_getElem inside)
  rw [found] at same
  cases same
  exact ⟨_, decodes⟩

/-- Every jump of a sealed function leads to an address in it or to its end. -/
theorem jump_inside {address : Nat} {i : Instruction} (here : f.code.Has address i)
    (jumps : i.opcode.isJump = true) :
    ∃ target, Machine.jumpTarget i address f.code.instructionCount = .ok target := by
  obtain ⟨instructions, decoded, stay⟩ := sealed
  have spells := Code.spells_of_decode decoded
  have there : instructions[address]? = some i := spells.getElem?_of_has here
  have within : ¬ Fusion.Leaves instructions.length address i := fun leaves =>
    stay address i ⟨there, leaves⟩
  have bounds : 0 ≤ i.target address ∧ i.target address ≤ instructions.length := by
    simp only [Fusion.Leaves, jumps, true_and] at within
    omega
  refine ⟨(i.target address).toNat, ?_⟩
  rw [Machine.jumpTarget, spells.count]
  exact if_pos bounds

end Function.Sealed

namespace Machine

variable {p : Program}

section Steps

variable {c : Core} {s : Surroundings}

/-- An instruction of a sealed function faults for an ordinary reason, if it does. -/
theorem advance_ordinary (sealed : s.frame.function.Sealed) {fault : Fault} {after : Machine}
    (failed : advance p (c.plug s) = .error fault after) : fault.Ordinary := by
  have full (fault : Fault) (_ : fault.Crowded) : True := trivial
  cases found : s.frame.function.code.recordAt? s.frame.pc with
  | none =>
    rw [advance_absent found] at failed
    exact (leave_composed full none).ordinary _ _ _ failed
  | some record =>
    obtain ⟨i, decodes⟩ := sealed.readable found
    have here : s.frame.function.code.Has s.frame.pc i := ⟨record, found, decodes⟩
    have performs := (perform_composed p (sealed.jump_inside here)).ordinary
    rw [advance_eq here] at failed
    exact performs.bind (fun transfer => (proceed_composed full p s.frame.pc transfer).ordinary)
      _ _ _ failed

/-- A function is not entered for an ordinary reason. -/
theorem enter_ordinary (index : Nat) (f : Function) (returnAddress : Option Nat) :
    FaultsWith Fault.Ordinary (enter index f returnAddress) := by
  intro m fault after failed
  unfold enter at failed
  repeat' split at failed
  all_goals cases failed
  all_goals simp [Fault.Ordinary, Fault.code]

/-- An instruction that cannot be read or a jump that leaves the function is reported while the
frame is still there. -/
theorem frame_of_advance {fault : Fault} {after : Machine}
    (failed : advance p (c.plug s) = .error fault after) (stray : ¬ fault.Ordinary) :
    ∃ frame callers, after.frames = frame :: callers ∧ frame.function = s.frame.function := by
  have full (fault : Fault) (_ : fault.Crowded) : True := trivial
  have advances := advance_cases p c s
  rw [failed] at advances
  generalize same : (EStateM.Result.error fault after : EStateM.Result Fault Machine Progress) =
    result at advances
  cases advances with
  | stayed | called => cases same
  | failed follows other counted =>
    cases same
    exact ⟨_, _, rfl, rfl⟩
  | departed departs counted =>
    exact absurd ((leave_composed full _).ordinary _ _ _ same.symm) stray

variable {σ : Type} {profiler : Profiler σ}

/-- If a step faults for another than an ordinary reason, the function that is running is not
sealed. -/
theorem step_stray {t u : σ} {m after : Machine} {fault : Fault}
    (faulted : step p profiler t m = .faulted fault u after) (stray : ¬ fault.Ordinary) :
    ∃ frame callers running waiting, m.frames = running :: waiting ∧
      after.frames = frame :: callers ∧ frame.function = running.function ∧
      ¬ running.function.Sealed := by
  by_cases idle : m.frames = []
  · -- Without a frame there is no function to run.
    have nothing : top (fun frame => (frame.pc, frame.function.code)) m =
        .error .stackUnderflow m := by
      simp only [top, idle]
    rw [step_eq_conclude, advance, bind_of_error nothing] at faulted
    cases faulted
    exact absurd (by simp [Fault.Ordinary, Fault.code]) stray
  obtain ⟨c, s, rfl⟩ := exists_plug idle
  rw [step_eq_conclude] at faulted
  cases advanced : advance p (c.plug s) with
  | error other between =>
    rw [advanced] at faulted
    cases faulted
    obtain ⟨frame, callers, frames, same⟩ := frame_of_advance advanced stray
    exact ⟨frame, callers, _, _, rfl, frames, same, fun sealed =>
      stray (advance_ordinary sealed advanced)⟩
  | ok progress between =>
    rw [advanced] at faulted
    cases progress with
    | running | finished => cases faulted
    | calling index callee returnAddress =>
      simp only [conclude] at faulted
      split at faulted
      next => cases faulted
      next other _ refused =>
        cases faulted
        exact absurd (enter_ordinary _ _ _ _ _ _ refused) stray

end Steps

section Runs

variable {σ : Type} {profiler : Profiler σ}

/-- If a run faults for another than an ordinary reason, the function that is running then is not
sealed. -/
theorem run_stray {fuel : Nat} {t u : σ} {m after : Machine} {fault : Fault}
    (faulted : run p profiler fuel t m = .faulted fault u after) (stray : ¬ fault.Ordinary) :
    ∃ frame callers, after.frames = frame :: callers ∧ ¬ frame.function.Sealed := by
  induction fuel generalizing t m with
  | zero => cases faulted
  | succ fuel ih =>
    unfold run at faulted
    cases stepped : step p profiler t m with
    | running v between =>
      rw [stepped] at faulted
      exact ih faulted
    | finished answer v between =>
      rw [stepped] at faulted
      cases faulted
    | faulted other v between =>
      rw [stepped] at faulted
      cases faulted
      obtain ⟨frame, callers, running, waiting, -, frames, same, unsealed⟩ :=
        step_stray stepped stray
      exact ⟨frame, callers, frames, same ▸ unsealed⟩

/-- Doing something for each value faults for an ordinary reason, if it does. -/
theorem forM_ordinary {values : List Value} {action : Value → Action Machine Unit}
    (each : ∀ value, FaultsWith Fault.Ordinary (action value)) :
    FaultsWith Fault.Ordinary (values.forM action) := by
  induction values with
  | nil => exact .pure ()
  | cons value rest ih => exact (each value).bind fun _ => ih

/-- A call does not start for an ordinary reason. -/
theorem start_ordinary (p : Program) (profiler : Profiler σ) (t : σ) (index : Nat)
    (arguments : List Value) :
    FaultsWith Fault.Ordinary (start p profiler t index arguments) := by
  have pushes (value : Value) :
      FaultsWith Fault.Ordinary (onStack (onLeft (OperandStack.push value))) :=
    onStack_faultsWith (OperandStack.push_ordinary value).onLeft
  have releases (value : Value) : FaultsWith Fault.Ordinary (release value) :=
    onHeap_faultsWith (Heap.releaseValue_ordinary value)
  refine (FaultsWith.ofExcept fun _ _ failed => by cases failed).bind fun limit => ?_
  dsimp only
  split
  next =>
    refine (forM_ordinary releases).bind fun _ m fault after failed => ?_
    cases failed
    simp [Fault.Ordinary, Fault.code]
  next =>
    refine (forM_ordinary pushes).bind fun _ => ?_
    split
    next => exact enter_ordinary _ _ _
    next => exact .throw (by simp [Fault.Ordinary, Fault.code])

/-- A call that is not admitted is refused for an ordinary reason. -/
theorem entryOf_ordinary {name : String} {arguments : List HostValue} {fault : Fault}
    (refused : entryOf p name arguments = .error fault) : fault.Ordinary := by
  unfold entryOf at refused
  split at refused
  next =>
    cases refused
    simp [Fault.Ordinary, Fault.code]
  split at refused
  next =>
    cases refused
    simp [Fault.Ordinary, Fault.code]
  next f _ =>
    have checked : f.checkArguments arguments = .error fault := by
      cases outcome : f.checkArguments arguments <;> rw [outcome] at refused <;> cases refused
      rfl
    unfold Function.checkArguments at checked
    repeat' split at checked
    all_goals cases checked
    all_goals simp [Fault.Ordinary, Fault.code]

/-- If a call faults for another than an ordinary reason, the function that is running then is not
sealed. -/
theorem underway_stray {fuel index : Nat} {arguments : List HostValue} {t u : σ}
    {m after : Machine} {fault : Fault}
    (faulted : underway p profiler fuel index arguments t m = .faulted fault u after)
    (stray : ¬ fault.Ordinary) :
    ∃ frame callers, after.frames = frame :: callers ∧ ¬ frame.function.Sealed := by
  unfold underway at faulted
  dsimp only at faulted
  cases started : start p profiler t index (m.heap.importAll arguments).1
      (unwind { m with heap := (m.heap.importAll arguments).2 }) with
  | error other between =>
    rw [started] at faulted
    cases faulted
    exact absurd (start_ordinary p profiler t index _ _ _ _ started) stray
  | ok _ between =>
    rw [started] at faulted
    exact run_stray faulted stray

/-- A call that ends with such a fault had it in a function that is not sealed. -/
theorem call_stray {fuel : Nat} {name : String} {arguments : List HostValue} {t : σ} {m : Machine}
    {fault : Fault}
    (ended : (call p profiler fuel name arguments t m).outcome? = some (.error fault))
    (stray : ¬ fault.Ordinary) :
    ∃ index u after frame callers, entryOf p name arguments = .ok index ∧
      underway p profiler fuel index arguments t m = .faulted fault u after ∧
      after.frames = frame :: callers ∧ ¬ frame.function.Sealed := by
  cases admitted : entryOf p name arguments with
  | error other =>
    rw [call_of_refused p profiler admitted] at ended
    cases ended
    exact absurd (entryOf_ordinary admitted) stray
  | ok index =>
    rw [call_eq_underway p profiler admitted] at ended
    cases status : underway p profiler fuel index arguments t m with
    | running u after =>
      rw [status] at ended
      cases ended
    | faulted other u after =>
      rw [status] at ended
      cases ended
      obtain ⟨frame, callers, frames, unsealed⟩ := underway_stray status stray
      exact ⟨index, u, after, frame, callers, rfl, status, frames, unsealed⟩
    | finished answer u after =>
      rw [status] at ended
      cases answer with
      | none => cases ended
      | some value =>
        dsimp only at ended
        cases exported : onHeap (Heap.exportHost value) after with
        | ok answer between =>
          rw [exported] at ended
          cases ended
        | error other between =>
          rw [exported] at ended
          cases ended
          exact absurd (onHeap_faultsWith (Heap.exportHost_ordinary value) _ _ _ exported) stray

end Runs

/-- A function that fusing accepts, and what it makes of it, are never left by way of a bad
instruction or a bad jump. No step of a frame that runs either of them faults so, whatever
program, profiler and state it is part of. If a call comes to the result code of such
faults, then the frame that was running at that time, before anything was unwound, ran neither. -/
theorem confined_of_fused {q : Program} {f : Function} {fusion : Fusion}
    (fused : f.fuse q = .ok fusion) {σ : Type} (p : Program) (profiler : Profiler σ) :
    (∀ (t : σ) (m : Machine) (frame : Frame) (callers : List Frame),
      m.frames = frame :: callers →
      frame.function = f ∨ frame.function = fusion.function →
      ∀ fault u after, step p profiler t m = .faulted fault u after →
        (∀ byte address, fault ≠ .invalidOpcode byte address) ∧
        (∀ address target length, fault ≠ .invalidJumpTarget address target length) ∧
        fault.code ≠ .invalidOpcode) ∧
    ∀ (fuel : Nat) (name : String) (arguments : List HostValue) (t : σ) (m : Machine)
      (fault : Fault),
      (call p profiler fuel name arguments t m).outcome? = some (.error fault) →
      fault.code = .invalidOpcode →
      ∃ index u after frame callers, entryOf p name arguments = .ok index ∧
        underway p profiler fuel index arguments t m = .faulted fault u after ∧
        after.frames = frame :: callers ∧
        frame.function ≠ f ∧ frame.function ≠ fusion.function := by
  obtain ⟨plain, made⟩ := Fusion.sealed_of_fuse fused
  constructor
  · intro t m frame callers frames version fault u after faulted
    have sealed : frame.function.Sealed := by
      rcases version with same | same
      · exact same ▸ plain
      · exact same ▸ made
    have ordinary : fault.Ordinary := by
      by_contra stray
      obtain ⟨-, -, running, waiting, found, -, -, unsealed⟩ := step_stray faulted stray
      rw [frames] at found
      cases found
      exact unsealed sealed
    refine ⟨?_, ?_, ordinary⟩
    · rintro byte address rfl
      exact ordinary rfl
    · rintro address target length rfl
      exact ordinary rfl
  · intro fuel name arguments t m fault ended code
    obtain ⟨index, u, after, frame, callers, admitted, faulted, frames, unsealed⟩ :=
      call_stray ended fun ordinary => ordinary code
    refine ⟨index, u, after, frame, callers, admitted, faulted, frames, ?_, ?_⟩
    · rintro rfl
      exact unsealed plain
    · rintro same
      exact unsealed (same ▸ made)

/-- The loop that counts a slot up, in both of its versions. -/
theorem confined_of_fused_countUpProgram :
    ∃ fusion, Fusion.countUp.fuse Fusion.countUpProgram = .ok fusion ∧ fusion.count = 1 ∧
      ∀ (m : Machine) (frame : Frame) (callers : List Frame), m.frames = frame :: callers →
        frame.function = Fusion.countUp ∨ frame.function = fusion.function →
        ∀ fault u after, step Fusion.countUpProgram Profiler.none () m = .faulted fault u after →
          fault.code ≠ .invalidOpcode := by
  obtain ⟨fusion, fused, count⟩ :
      ∃ fusion, Fusion.countUp.fuse Fusion.countUpProgram = .ok fusion ∧ fusion.count = 1 :=
    ⟨_, rfl, rfl⟩
  obtain ⟨steps, -⟩ := confined_of_fused fused Fusion.countUpProgram (Profiler.none : Profiler Unit)
  refine ⟨fusion, fused, count, ?_⟩
  intro m frame callers frames version fault u after faulted
  exact (steps () m frame callers frames version fault u after faulted).2.2

end Machine

end HotPath
