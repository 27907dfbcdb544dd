import HotPath.Proofs.Fusion.FixedPoint
import HotPath.Proofs.Machine.Inversion
import HotPath.Proofs.Machine.Transparency
import Mathlib.Logic.Function.Iterate

/-!
# What a profiler is told in a run

A profiler is told of a call when the instruction is carried out; the function that the host calls
is entered without a report. If no function of a program calls any but one, then the
state of the profiler after a run is that of so many reports about the one function, and the
machine has counted as many calls besides (`call_told`).

Fusing does not touch calls, so it does not matter which versions are entered on the way.
-/

namespace HotPath

/-- Every call of a function is a call of the function with this index. -/
def Function.CallsOnly (f : Function) (index : Nat) : Prop :=
  ∀ address i, f.code.Has address i → i.opcode = .call → i.index = index

namespace Function.CallsOnly

variable {p : Program} {f : Function} {index : Nat}

/-- A function made of a block makes the calls that are in the block. -/
theorem of_spells {block : List Instruction} (spells : f.code.Spells block)
    (only : ∀ i ∈ block, i.opcode = .call → i.index = index) : f.CallsOnly index :=
  fun _ i here => only i (List.mem_of_getElem? (spells.getElem?_of_has here))

/-- Fusing adds no calls. -/
theorem of_fuse (only : f.CallsOnly index) {fusion : Fusion} (fused : f.fuse p = .ok fusion) :
    fusion.function.CallsOnly index := by
  obtain ⟨before, after, segments, decoded, decodes, fuses, -⟩ := Fusion.fuses_of_fuse fused
  intro address i here opcode
  have there := (Code.spells_of_decode decodes).getElem?_of_has here
  have plain (direction : Direction) : i.opcode ≠ .stepLocal direction := by
    rw [opcode]
    intro same
    cases same
  obtain ⟨stood, -⟩ := fuses.kept_of_straight there (by rw [opcode]; rfl) plain
  exact only _ i ((Code.spells_of_decode decoded).inside stood) opcode

/-- A version makes the calls that the function makes. -/
theorem of_version (only : f.CallsOnly index) {version : Function}
    (isVersion : f.HasVersion p version) : version.CallsOnly index := by
  rcases isVersion with rfl | ⟨fusion, fused, rfl⟩
  · exact only
  · exact only.of_fuse fused

end Function.CallsOnly

/-- A profiler offers fusions only, however many calls of a function it has been told about. -/
theorem Profiler.OffersFusions.iterate {σ : Type} {p : Program} {profiler : Profiler σ} {t : σ}
    {index : Nat} {f : Function} (offers : profiler.OffersFusions p t)
    (known : p.functions[index]? = some f) (n : Nat) :
    profiler.OffersFusions p ((profiler.recordCall index f)^[n] t) := by
  induction n generalizing t with
  | zero => exact offers
  | succ n ih => exact ih (offers.recorded known)

namespace Machine

/-- The functions that are running call none but the one with this index. -/
def CallsOnly (index : Nat) (m : Machine) : Prop :=
  ∀ frame ∈ m.frames, frame.function.CallsOnly index

/-- From one machine to another, a profiler has been told of calls of one function, as often as the
machine has counted a call. -/
def Tells {σ : Type} (profiler : Profiler σ) (index : Nat) (f : Function) (t : σ) (m : Machine)
    (u : σ) (after : Machine) : Prop :=
  ∃ n, after.counts.calls = m.counts.calls + n ∧ u = (profiler.recordCall index f)^[n] t

/-- An execution that has not faulted has told a profiler of the calls of one function. -/
def Told {σ α : Type} (profiler : Profiler σ) (index : Nat) (f : Function) (t : σ) (m : Machine) :
    Status σ α → Prop
  | .running u after => Tells profiler index f t m u after ∧ after.CallsOnly index
  | .finished _ u after => Tells profiler index f t m u after
  | .faulted .. => True

section Frames

variable {index : Nat} {c : Core} {s : Surroundings}

/-- A machine makes calls of one function only if all its frames do. -/
theorem CallsOnly.plug_iff : (c.plug s).CallsOnly index ↔
    s.frame.function.CallsOnly index ∧
      ∀ frame ∈ s.callers.frames, frame.function.CallsOnly index := by
  rw [CallsOnly, Core.frames_plug, List.forall_mem_cons]

/-- The callers that are left call no other function either. -/
theorem CallsOnly.resumed (only : (c.plug s).CallsOnly index) {caller : Frame}
    {callers : CallStack} (waiting : s.callers = callers.push caller) (heap : Heap)
    (value : Option Value) : (resumed c s heap caller callers value).CallsOnly index := by
  obtain ⟨-, others⟩ := CallsOnly.plug_iff.mp only
  rw [waiting, CallStack.frames_push, List.forall_mem_cons] at others
  exact CallsOnly.plug_iff.mpr others

/-- A call that is entered is in a function that makes such calls only. -/
theorem CallsOnly.entered {m : Machine} (only : m.CallsOnly index) {version : Function}
    (enters : version.CallsOnly index) (entry : Nat) (returnAddress : Option Nat)
    (below arguments : Array Value) :
    (entered entry version returnAddress m below arguments).CallsOnly index :=
  CallsOnly.plug_iff.mpr ⟨enters, only⟩

end Frames

section Runs

variable {σ : Type} {p : Program} {profiler : Profiler σ} {index ground : Nat} {f : Function}

/-- Where nothing happens nothing is told. -/
theorem Tells.refl (t : σ) (m : Machine) : Tells profiler index f t m t m := ⟨0, rfl, rfl⟩

/-- What has been told on the way has been told altogether. -/
theorem Tells.trans {t u v : σ} {m between after : Machine}
    (early : Tells profiler index f t m u between)
    (late : Tells profiler index f u between v after) : Tells profiler index f t m v after := by
  obtain ⟨n, counted, rfl⟩ := early
  obtain ⟨k, more, rfl⟩ := late
  refine ⟨k + n, ?_, (Function.iterate_add_apply _ k n t).symm⟩
  rw [more, counted, Nat.add_assoc, Nat.add_comm n]

/-- Leaving a frame tells nothing. -/
theorem Left.told {t : σ} {c : Core} {s : Surroundings} {value : Option Value}
    {status : Status σ (Option Value)} (left : Left t c s value status)
    (only : (c.plug s).CallsOnly index) : Told profiler index f t (c.plug s) status := by
  cases left with
  | resumed waiting heap => exact ⟨.refl t _, only.resumed waiting heap value⟩
  | finished alone heap => exact .refl t _

variable (known : p.functions[index]? = some f) (plain : f.CallsOnly index)

include known plain

/-- One step tells of a call if it makes one. -/
theorem step_told {t : σ} (offers : profiler.OffersFusions p t) {m : Machine}
    (framed : Framed ground m) (balanced : Holder.Balanced m []) (only : m.CallsOnly index) :
    Told profiler index f t m (step p profiler t m) := by
  obtain ⟨c, s, rfl⟩ := exists_plug balanced.1
  obtain ⟨running, others⟩ := CallsOnly.plug_iff.mp only
  have moves := step_moves p profiler framed balanced t
  generalize step p profiler t (c.plug s) = status at moves
  cases moves with
  | ended absent left => exact left.told only
  | unreadable code => trivial
  | @carried i here status carries =>
    cases carries with
    | stayed keeps inside => exact ⟨.refl t _, CallsOnly.plug_iff.mpr ⟨running, others⟩⟩
    | failed | refused => trivial
    | left departs left =>
      exact left.told (s := s.counted 1) (CallsOnly.plug_iff.mpr ⟨running, others⟩)
    | entered opcode found reported enters room entries visible count =>
      obtain rfl : i.index = index := running _ i here opcode
      rw [known] at found
      cases found
      have isVersion := isVersion_of_offers offers known (.recorded .start known)
      refine ⟨⟨1, rfl, reported⟩, ?_⟩
      have kept : (c.plug (s.counted 1)).CallsOnly i.index :=
        CallsOnly.plug_iff.mpr ⟨running, others⟩
      rw [enters, reported]
      exact kept.entered (plain.of_version isVersion) _ _ _ _

/-- A run tells of every call that it makes. -/
theorem run_told (fuel : Nat) {t : σ} (offers : profiler.OffersFusions p t) {m : Machine}
    (framed : Framed ground m) (balanced : Holder.Balanced m []) (only : m.CallsOnly index) :
    Told profiler index f t m (run p profiler fuel t m) := by
  induction fuel generalizing t m with
  | zero => exact ⟨.refl t m, only⟩
  | succ fuel ih =>
    have once := step_told known plain offers framed balanced only
    have stays := (step_framed p profiler t framed balanced).1
    have kept := step_keeps p profiler t balanced
    unfold run
    cases stepped : step p profiler t m with
    | finished answer u after =>
      rw [stepped] at once
      exact once
    | faulted fault u after => trivial
    | running u after =>
      rw [stepped] at once stays kept
      obtain ⟨early, onlyAfter⟩ := once
      have later : profiler.OffersFusions p u := by
        obtain ⟨n, -, rfl⟩ := early
        exact offers.iterate known n
      have rest := ih later stays kept onlyAfter
      dsimp only
      cases ran : run p profiler fuel u after with
      | running v last =>
        rw [ran] at rest
        exact ⟨early.trans rest.1, rest.2⟩
      | finished answer v last =>
        rw [ran] at rest
        exact early.trans rest
      | faulted fault v last => trivial

end Runs

section Calls

variable {σ : Type} {p : Program} {profiler : Profiler σ} {index : Nat} {f : Function}
  (known : p.functions[index]? = some f) (all : ∀ g ∈ p.functions, g.CallsOnly index)

include all in
/-- The function that the host calls is counted, but not told of. -/
theorem start_told {t : σ} (offers : profiler.OffersFusions p t) {entry : Nat} {g : Function}
    (found : p.functions[entry]? = some g) {values : List Value} {m after : Machine}
    (idle : m.frames = []) (empty : m.stack.entries = #[]) (base : m.stack.base = 0)
    (started : start p profiler t entry values m = .ok () after) :
    after.counts.calls = m.counts.calls + 1 ∧ after.CallsOnly index := by
  by_cases crowded : m.stack.limit < values.length
  · obtain ⟨fault, other, failed⟩ := start_of_crowded p entry crowded
    rw [failed profiler t] at started
    cases started
  have room : m.stack.entries.size + values.length ≤ m.stack.limit := by
    rw [empty, Array.size_empty, Nat.zero_add]
    exact Nat.le_of_not_lt crowded
  have visible : (m.loaded values).stack.base ≤ (m.loaded values).stack.entries.size := by
    have bottom : (m.loaded values).stack.base = 0 := base
    rw [bottom]
    exact Nat.zero_le _
  have none_running : (m.loaded values).CallsOnly index := by
    intro frame member
    have frames : (m.loaded values).frames = [] := idle
    rw [frames] at member
    cases member
  have only := (all g (Array.mem_of_getElem? found)).of_version
    (isVersion_of_offers offers found .start)
  rw [start_of_room room found] at started
  rcases enter_cases visible entry (profiler.version entry g t) none with
    ⟨fault, failed⟩ | ⟨below, arguments, -, -, -, entered⟩
  · rw [failed] at started
    cases started
  · rw [entered] at started
    cases started
    exact ⟨rfl, none_running.entered only entry none below arguments⟩

include known all

/-- An execution under way tells a profiler about one function only, once for each call but its
own. -/
theorem underway_told {t : σ} (offers : profiler.OffersFusions p t) {m : Machine}
    (balanced : m.heap.Balanced m.held) (fuel : Nat) {entry : Nat} {g : Function}
    (found : p.functions[entry]? = some g) (arguments : List HostValue) {answer : Option Value}
    {u : σ} {after : Machine}
    (ended : underway p profiler fuel entry arguments t m = .finished answer u after) :
    ∃ n, after.counts.calls = m.counts.calls + 1 + n ∧ u = (profiler.recordCall index f)^[n] t := by
  let imported : Machine := { m with heap := (m.heap.importAll arguments).2 }
  have unwound := unwind_keeps (m := imported) (balanced.importAll arguments)
  have framed := start_framed p profiler t found unwound rfl rfl rfl
  unfold underway at ended
  dsimp only at ended
  cases started : start p profiler t entry (m.heap.importAll arguments).1 imported.unwind with
  | error fault between =>
    rw [started] at ended
    cases ended
  | ok _ between =>
    obtain ⟨counted, only⟩ := start_told all offers found rfl rfl rfl started
    rw [started] at ended framed
    obtain ⟨-, balancedBetween, framedBetween⟩ := framed
    have told := run_told known (all f (Array.mem_of_getElem? known)) fuel offers framedBetween
      balancedBetween only
    dsimp only at ended
    rw [ended] at told
    obtain ⟨n, more, reports⟩ := told
    refine ⟨n, ?_, reports⟩
    rw [more, counted]
    rfl

/-- When a call has succeeded in a program of which only one function is called, the profiler has
been told of every call but the one from the host, and of nothing else. -/
theorem call_told {t : σ} (offers : profiler.OffersFusions p t) {m : Machine}
    (balanced : m.heap.Balanced m.held) {fuel : Nat} {name : String} {arguments : List HostValue}
    {answer : Option HostValue}
    (ended : (call p profiler fuel name arguments t m).outcome? = some (.ok answer)) :
    ∃ n, (call p profiler fuel name arguments t m).machine.counts.calls =
        m.counts.calls + 1 + n ∧
      (call p profiler fuel name arguments t m).profile = (profiler.recordCall index f)^[n] t := by
  cases admitted : entryOf p name arguments with
  | error fault =>
    rw [call_of_refused p profiler admitted] at ended
    cases ended
  | ok entry =>
    obtain ⟨g, found, -⟩ := arity_of_entryOf admitted
    rw [call_eq_underway p profiler admitted] at ended ⊢
    cases reached : underway p profiler fuel entry arguments t m with
    | running u after | faulted fault u after =>
      rw [reached] at ended
      cases ended
    | finished value u after =>
      have told := underway_told known all offers balanced fuel found arguments reached
      rw [reached] at ended
      cases value with
      | none => exact told
      | some value =>
        dsimp only [onHeap] at ended ⊢
        cases exported : Heap.exportHost value after.heap with
        | ok answer heap => exact told
        | error fault heap =>
          rw [exported] at ended
          cases ended

end Calls

end Machine

end HotPath
