import HotPath.Proofs.Fusion.Matches

/-!
# What fusing does to a stream

`Fuses` relates a stream to the one that fusing makes of it: the segments of the first are
its fusible spans and the instructions between them, and each of them has become one instruction
of the second. `fuses_of_fuse` says that this is what happens whenever fusing succeeds, also
when there is nothing to fuse, and `fuse_exact` states it without segments.
-/

namespace HotPath

namespace Fusion

section Fusing

variable {p : Program} {instructions : List Instruction} {found : List Nat}

/-- The segments that are cut divide the instructions. -/
theorem divides_segments (accepted : targets instructions.length 0 instructions = .ok found) :
    Divides p instructions (Segment.segments p.intConstants found 0 instructions) where
  whole := (Segment.segments_cuts p.intConstants found 0 instructions).length_eq
  marks := by
    intro k segment here
    have marks := segments_mark (mem_targets_iff accepted) List.drop_zero here
    rwa [Nat.zero_add] at marks

/-- What a segment has become. -/
inductive Emitted (segments : List Segment) (k : Nat) : Segment → Instruction → Prop where
  | kept {i j : Instruction} (follows : Follows segments k i j) : Emitted segments k (.kept i) j
  | fused (direction : Direction) (slot : BitVec 24) :
    Emitted segments k (.fused direction slot) ⟨.stepLocal direction, slot⟩

/-- Every segment of one stream has become an instruction of the other. -/
structure Fuses (p : Program) (before after : List Instruction) (segments : List Segment) :
    Prop where
  divides : Divides p before segments
  length : after.length = segments.length
  emitted : ∀ {k : Nat} {segment : Segment}, segments[k]? = some segment →
    ∃ j, after[k]? = some j ∧ Emitted segments k segment j

/-- What is emitted for the segments is a fusion of the instructions. -/
theorem fuses_of_emitAll (accepted : targets instructions.length 0 instructions = .ok found)
    {segments : List Segment}
    (cut : segments = Segment.segments p.intConstants found 0 instructions)
    {after : List Instruction}
    (emission : emitAll (Segment.destinations 0 segments).toArray 0 0 segments = .ok after) :
    Fuses p instructions after segments := by
  obtain ⟨length, emits⟩ := emitAll_spec emission
  have divides : Divides p instructions segments := cut ▸ divides_segments accepted
  refine ⟨divides, length, ?_⟩
  intro k segment here
  obtain ⟨j, there, emitted⟩ := emits here
  refine ⟨j, there, ?_⟩
  rw [Nat.zero_add, Nat.zero_add] at emitted
  have marks := divides.marks here
  cases marks with
  | fused fusible first =>
    cases emitted
    exact .fused _ _
  | kept standing single => exact .kept (follows_of_emit accepted cut standing emitted)

/-- Without a fused segment every instruction stays where it is. -/
theorem startOf_of_unfused {segments : List Segment}
    (unfused : segments.countP Segment.isFused = 0) {k : Nat} (inside : k ≤ segments.length) :
    Segment.startOf segments k = k := by
  induction k with
  | zero => exact Segment.startOf_zero segments
  | succ k ih =>
    have here := List.getElem?_eq_getElem inside
    have single := List.countP_eq_zero.mp unfused _ (List.mem_of_getElem? here)
    rw [Segment.startOf_succ here, ih (Nat.le_of_succ_le inside)]
    generalize segments[k] = segment at single
    cases segment with
    | kept => rfl
    | fused => exact absurd rfl single

/-- Where no segment is fused the instructions are a fusion of themselves. -/
theorem fuses_of_unfused (accepted : targets instructions.length 0 instructions = .ok found)
    {segments : List Segment}
    (cut : segments = Segment.segments p.intConstants found 0 instructions)
    (unfused : segments.countP Segment.isFused = 0) :
    Fuses p instructions instructions segments := by
  have divides : Divides p instructions segments := cut ▸ divides_segments accepted
  have stays {k : Nat} (inside : k ≤ segments.length) := startOf_of_unfused unfused inside
  refine ⟨divides, divides.whole.trans (stays (Nat.le_refl _)), ?_⟩
  intro k segment here
  obtain ⟨inside, -⟩ := List.getElem?_eq_some_iff.mp here
  have marks := divides.marks here
  rw [stays (Nat.le_of_lt inside)] at marks
  cases marks with
  | @fused direction load fusible first =>
    have single := List.countP_eq_zero.mp unfused _ (List.mem_of_getElem? here)
    exact absurd rfl single
  | @kept i there single =>
    refine ⟨i, there, .kept ?_⟩
    unfold Follows
    split
    next jump =>
      obtain ⟨target, within, leads⟩ := jump_leads accepted cut there jump
      rw [stays within] at leads
      exact ⟨rfl, target, within, by rwa [stays within, stays (Nat.le_of_lt inside)], leads⟩
    next => rfl

variable {f : Function} {fusion : Fusion}

/-- Fusing a function makes an instruction of every segment of it and changes nothing else. -/
theorem fuses_of_fuse (fused : f.fuse p = .ok fusion) :
    ∃ before after segments, f.code.decode = .ok before ∧
      fusion.function.code.decode = .ok after ∧ Fuses p before after segments ∧
      fusion.count = segments.countP Segment.isFused ∧
      fusion.function = f.withCode fusion.function.code := by
  unfold Function.fuse at fused
  cases decoded : f.code.decode with
  | error e => rw [decoded] at fused; cases fused
  | ok before =>
    cases jumps : targets before.length 0 before with
    | error e => rw [decoded] at fused; simp only [bind, Except.bind, jumps] at fused; cases fused
    | ok found =>
      rw [decoded] at fused
      simp only [bind, Except.bind, jumps] at fused
      split at fused
      next unfused =>
        cases fused
        exact ⟨before, before, _, rfl, decoded, fuses_of_unfused jumps rfl unfused,
          unfused.symm, rfl⟩
      next =>
        split at fused
        next => cases fused
        next after emission =>
          cases fused
          exact ⟨before, after, _, rfl, Code.decode_ofList after,
            fuses_of_emitAll jumps rfl emission, rfl, rfl⟩

end Fusing

section Results

variable {p : Program} {before after : List Instruction} {segments : List Segment}

/-- What stands in the place of what stood at an address that is not inside a span. A span has
become one instruction, and a jump leads to where its target has gone. -/
inductive Becomes (p : Program) (before : List Instruction) (address : Nat) : Instruction → Prop where
  | fused {direction : Direction} {load : Instruction}
    (fusible : Fusible p before direction address) (first : before[address]? = some load) :
    Becomes p before address ⟨.stepLocal direction, load.operand⟩
  | kept {i : Instruction} (single : ¬ FusibleAt p before address)
    (here : before[address]? = some i) (straight : i.opcode.isJump = false) :
    Becomes p before address i
  | jump {i j : Instruction} (here : before[address]? = some i) (jumps : i.opcode.isJump = true)
    (same : j.opcode = i.opcode) {target : Nat} (leads : i.target address = (target : Int))
    (inside : target ≤ before.length) (single : ¬ Covered p before target)
    (goes : j.target (moved p before address) = (moved p before target : Int)) :
    Becomes p before address j

/-- An instruction that is emitted is what the instructions of its segment become. -/
theorem Fuses.becomes (fuses : Fuses p before after segments) {k : Nat} {segment : Segment}
    (here : segments[k]? = some segment) {j : Instruction}
    (emitted : Emitted segments k segment j) :
    Becomes p before (Segment.startOf segments k) j := by
  obtain ⟨within, -⟩ := List.getElem?_eq_some_iff.mp here
  have marks := fuses.divides.marks here
  cases emitted with
  | fused direction slot =>
    cases marks with
    | fused fusible first => exact .fused fusible first
  | @kept i j follows =>
    cases marks with
    | @kept i there single =>
      cases jump : i.opcode.isJump with
      | true =>
        obtain ⟨same, target, inside, leads, goes⟩ := follows.leads jump
        refine .jump there jump same leads ?_ (fuses.divides.not_covered inside) ?_
        · rw [fuses.divides.whole]
          exact startOf_mono inside (Nat.le_refl _)
        · rwa [fuses.divides.moved_startOf (Nat.le_of_lt within),
            fuses.divides.moved_startOf inside]
      | false =>
        obtain rfl := follows.eq_of_straight jump
        exact .kept single there jump

/-- What stood at an address that is not inside a span is found where the address goes. -/
theorem Fuses.becomes_at (fuses : Fuses p before after segments) {address : Nat}
    (inside : address < before.length) (single : ¬ Covered p before address) :
    ∃ j, after[moved p before address]? = some j ∧ Becomes p before address j := by
  obtain ⟨k, within, rfl⟩ := fuses.divides.exists_startOf (Nat.le_of_lt inside) single
  have proper : k < segments.length := by
    refine Nat.lt_of_le_of_ne within ?_
    rintro rfl
    exact absurd fuses.divides.whole (Nat.ne_of_gt inside)
  have here := List.getElem?_eq_getElem proper
  obtain ⟨j, there, emitted⟩ := fuses.emitted here
  refine ⟨j, ?_, fuses.becomes here emitted⟩
  rwa [fuses.divides.moved_startOf within]

/-- Each fused segment stands for three instructions more than it becomes. -/
theorem startOf_length (segments : List Segment) :
    Segment.startOf segments segments.length =
      segments.length + 3 * segments.countP Segment.isFused := by
  induction segments with
  | nil => rfl
  | cons segment rest ih =>
    rw [List.length_cons, Segment.startOf_cons_succ, ih, List.countP_cons]
    cases segment with
    | kept => simp only [Segment.length, Segment.isFused, Bool.false_eq_true, if_false]; omega
    | fused =>
      simp only [Segment.length, Segment.spanLength, Segment.isFused, if_true]
      omega

/-- The instructions of the new stream, in order, are what has become of the addresses that are not
inside a span. -/
theorem Fuses.forall₂_becomes (fuses : Fuses p before after segments) :
    List.Forall₂ (Becomes p before)
      ((List.range before.length).filter fun address => ¬ Covered p before address) after := by
  rw [fuses.divides.whole, fuses.divides.filter_range (Nat.le_refl _), List.forall₂_map_left_iff,
    List.forall₂_iff_get]
  refine ⟨by rw [List.length_range, fuses.length], fun k low high => ?_⟩
  have inside : k < segments.length := fuses.length ▸ high
  obtain ⟨j, there, emitted⟩ := fuses.emitted (List.getElem?_eq_getElem inside)
  obtain ⟨_, rfl⟩ := List.getElem?_eq_some_iff.mp there
  have becomes := fuses.becomes (List.getElem?_eq_getElem inside) emitted
  simpa using becomes

/-- Every span that is fused makes the function three instructions shorter. -/
theorem instructionCount_of_fuse {f : Function} {fusion : Fusion} (fused : f.fuse p = .ok fusion) :
    f.instructionCount = fusion.function.instructionCount + 3 * fusion.count := by
  obtain ⟨before, after, segments, decoded, decodes, fuses, count, -⟩ := fuses_of_fuse fused
  have length := (Code.spells_of_decode decoded).count
  have fusedLength := (Code.spells_of_decode decodes).count
  rw [fuses.divides.whole, startOf_length, ← fuses.length, ← count] at length
  rw [Function.instructionCount, Function.instructionCount, length, fusedLength]

/-- Fusing a function replaces all fusible spans, which never overlap, and does nothing else. The
new stream has one instruction for each address that is not inside a span, in order: the
step of the slot where a span starts, and what stood there elsewhere, except that a jump
leads to where its target has gone. An address goes to the number of addresses before it that
are not inside a span, the end of the stream included, and that is where its instruction is
found. Apart from its code the function is the same. -/
theorem fuse_exact {f : Function} {fusion : Fusion} (fused : f.fuse p = .ok fusion) :
    ∃ before after, f.code.decode = .ok before ∧ fusion.function.code.decode = .ok after ∧
      (∀ first second, FusibleAt p before first → FusibleAt p before second → first < second →
        first + 4 ≤ second) ∧
      fusion.count = Nat.count (FusibleAt p before) before.length ∧
      List.Forall₂ (Becomes p before)
        ((List.range before.length).filter fun address => ¬ Covered p before address) after ∧
      (∀ address < before.length, ¬ Covered p before address →
        ∃ j, after[moved p before address]? = some j ∧ Becomes p before address j) ∧
      moved p before before.length = after.length ∧
      before.length = after.length + 3 * fusion.count ∧
      fusion.function = f.withCode fusion.function.code := by
  obtain ⟨before, after, segments, decoded, decodes, fuses, count, same⟩ := fuses_of_fuse fused
  have whole := fuses.divides.whole
  refine ⟨before, after, decoded, decodes, fun _ _ => fusible_apart, ?_, fuses.forall₂_becomes,
    fun _ => fuses.becomes_at, ?_, ?_, same⟩
  · rw [whole, fuses.divides.count_fusible (Nat.le_refl _), List.take_length, count]
  · rw [whole, fuses.divides.moved_startOf (Nat.le_refl _), fuses.length]
  · rw [whole, startOf_length, fuses.length, count]

end Results

/-- A loop that counts a slot up, and a jump past the end of it. -/
def countUp : Function :=
  .make "up" [⟨"n", .int⟩] .void 1
    (.ofList [.make (.pushBool false) 0, .make (.jump (.when false)) 6, .make .loadLocal 0,
      .make .pushInt 0, .make (.intBinary .add) 0, .make .storeLocal 0, .make (.jump .always) (-6)])

/-- A program whose only function is the loop. -/
def countUpProgram : Program where
  intConstants := #[1]
  floatConstants := #[]
  functions := #[countUp]
  entry := "up"

/-- One span of the loop is fused. -/
theorem fuse_exact_countUpProgram :
    ∃ fusion, countUp.fuse countUpProgram = .ok fusion ∧ fusion.count = 1 ∧
      fusion.function.code.decode = .ok [.make (.pushBool false) 0, .make (.jump (.when false)) 3,
        .make (.stepLocal .up) 0, .make (.jump .always) (-3)] ∧
      ∃ before after, countUp.code.decode = .ok before ∧ fusion.function.code.decode = .ok after ∧
        List.Forall₂ (Becomes countUpProgram before)
          ((List.range before.length).filter fun address =>
            ¬ Covered countUpProgram before address) after ∧
        before.length = after.length + 3 * fusion.count := by
  have fused : countUp.fuse countUpProgram = .ok ⟨countUp.withCode (.ofList
      [.make (.pushBool false) 0, .make (.jump (.when false)) 3, .make (.stepLocal .up) 0,
        .make (.jump .always) (-3)]), 1⟩ := by rfl
  obtain ⟨before, after, decoded, decodes, -, -, becomes, -, -, length, -⟩ := fuse_exact fused
  exact ⟨_, fused, rfl, Code.decode_ofList _, before, after, decoded, decodes, becomes, length⟩

end Fusion

end HotPath
