import HotPath.Fusion.Pass
import HotPath.Proofs.Code.Decoding

/-!
# How a fused function lines up with its original

Every instruction of a fused function stands for a segment of the original: one
instruction that was kept, or a span of four. `Segment.startOf` is the address at
which a segment starts, so the fused function has gone as far at address `k` as
the original at `startOf segments k`. `Aligned` says what is found at these two
addresses, and `aligned_of_fuse` that fusing gives functions that line up.
-/

namespace HotPath

namespace Segment

/-- The address at which the segment with an index starts. -/
def startOf : List Segment → Nat → Nat
  | segment :: rest, k + 1 => segment.length + startOf rest k
  | _, _ => 0

/-- The first segment starts where the stream does. -/
@[simp] theorem startOf_zero (segments : List Segment) : startOf segments 0 = 0 := by
  cases segments <;> rfl

/-- The other segments start behind the first. -/
@[simp] theorem startOf_cons_succ (segment : Segment) (rest : List Segment) (k : Nat) :
    startOf (segment :: rest) (k + 1) = segment.length + startOf rest k := rfl

/-- No segment is empty. -/
theorem length_pos (segment : Segment) : 0 < segment.length := by
  cases segment with
  | kept i => exact Nat.one_pos
  | fused direction slot => exact Nat.succ_pos 3

/-- A segment starts where the one before it ends. -/
theorem startOf_succ {segments : List Segment} {k : Nat} {segment : Segment}
    (found : segments[k]? = some segment) :
    startOf segments (k + 1) = startOf segments k + segment.length := by
  induction segments generalizing k with
  | nil => cases found
  | cons first rest ih =>
    cases k with
    | zero =>
      cases found
      simp
    | succ k =>
      have later := ih (by simpa using found)
      rw [startOf_cons_succ, startOf_cons_succ, later]
      omega

/-- The start of a segment goes to the index of the segment. -/
theorem relocate_startOf {segments : List Segment} {k : Nat} (inside : k ≤ segments.length) :
    relocate segments (startOf segments k) = k := by
  induction segments generalizing k with
  | nil =>
    obtain rfl : k = 0 := Nat.le_zero.mp inside
    rfl
  | cons segment rest ih =>
    cases k with
    | zero => simp [relocate, length_pos]
    | succ k =>
      have later := ih (Nat.le_of_succ_le_succ inside)
      simp [relocate, later]

/-- Segments start inside of the stream, or at its end. -/
theorem startOf_le {segments : List Segment} {k : Nat} (inside : k ≤ segments.length) :
    startOf segments k ≤ startOf segments segments.length := by
  induction segments generalizing k with
  | nil =>
    obtain rfl : k = 0 := Nat.le_zero.mp inside
    exact Nat.le_refl _
  | cons segment rest ih =>
    cases k with
    | zero => simp
    | succ k =>
      have later := ih (Nat.le_of_succ_le_succ inside)
      simpa using later

/-- The table of destinations holds where each address goes. -/
theorem getElem?_destinations (destination : Nat) (segments : List Segment) {address : Nat}
    (inside : address ≤ startOf segments segments.length) :
    (destinations destination segments)[address]? =
      some (destination + relocate segments address) := by
  induction segments generalizing destination address with
  | nil =>
    obtain rfl : address = 0 := Nat.le_zero.mp inside
    rfl
  | cons segment rest ih =>
    unfold destinations relocate
    by_cases first : address < segment.length
    · rw [List.getElem?_append_left (by simpa using first), if_pos first,
        List.getElem?_replicate_of_lt first, Nat.add_zero]
    · have later : address - segment.length ≤ startOf rest rest.length := by
        rw [List.length_cons, startOf_cons_succ] at inside
        omega
      rw [List.getElem?_append_right (by simpa using first), List.length_replicate,
        ih (destination + 1) later, if_neg first]
      congr 1
      omega

/-- What four instructions do that step a slot. -/
theorem of_direction? {constants : Array Int64} {load one change store : Instruction}
    {direction : Direction} (steps : direction? constants load one change store = some direction) :
    load.opcode = .loadLocal ∧ one.opcode = .pushInt ∧ store.opcode = .storeLocal ∧
      load.operand = store.operand ∧ constants[one.index]? = some 1 ∧
      (change.opcode = .intBinary .add ∧ direction = .up ∨
        change.opcode = .intBinary .sub ∧ direction = .down) := by
  unfold direction? at steps
  split at steps
  next shape =>
    obtain ⟨loads, pushes, stores, slot, constant⟩ := shape
    refine ⟨loads, pushes, stores, slot, constant, ?_⟩
    split at steps
    next adds =>
      cases steps
      exact .inl ⟨adds, rfl⟩
    next subtracts =>
      cases steps
      exact .inr ⟨subtracts, rfl⟩
    next => cases steps
  next => cases steps

/-- A list of segments covers a stream. -/
inductive Cuts (constants : Array Int64) : List Segment → List Instruction → Prop where
  | nil : Cuts constants [] []
  | kept {segments : List Segment} {rest : List Instruction} (i : Instruction) :
    Cuts constants segments rest → Cuts constants (kept i :: segments) (i :: rest)
  | fused {segments : List Segment} {rest : List Instruction} {direction : Direction}
      {load one change store : Instruction} :
    direction? constants load one change store = some direction →
    Cuts constants segments rest →
    Cuts constants (fused direction load.operand :: segments)
      (load :: one :: change :: store :: rest)

section Cutting

variable (constants : Array Int64) (targets : List Nat)

/-- The segments of a stream cover it. -/
theorem segments_cuts (address : Nat) (instructions : List Instruction) :
    Cuts constants (segments constants targets address instructions) instructions := by
  induction address, instructions using segments.induct constants targets with
  | case1 address load one change store rest direction steps enters ih =>
    rw [segments, steps]
    simp only [enters, if_true]
    exact .kept load ih
  | case2 address load one change store rest direction steps enters ih =>
    rw [segments, steps]
    simp only [enters]
    exact .fused steps ih
  | case3 address load one change store rest steps ih =>
    rw [segments, steps]
    exact .kept load ih
  | case4 address first rest short ih =>
    rw [segments]
    · exact .kept first ih
    · exact short
  | case5 address =>
    rw [segments]
    exact .nil

/-- A segment of a list that starts at `address` starts at `target`, or the list ends there. -/
def StartsAt (address : Nat) (segments : List Segment) (target : Nat) : Prop :=
  ∃ k ≤ segments.length, target = address + startOf segments k

/-- The first segment starts at the address, or the list ends there. -/
theorem StartsAt.here (address : Nat) (segments : List Segment) :
    StartsAt address segments address :=
  ⟨0, Nat.zero_le _, by simp⟩

/-- What starts behind the first segment starts in the list. -/
theorem StartsAt.cons {address target : Nat} {segment : Segment} {rest : List Segment}
    (later : StartsAt (address + segment.length) rest target) :
    StartsAt address (segment :: rest) target := by
  obtain ⟨k, inside, rfl⟩ := later
  refine ⟨k + 1, Nat.succ_le_succ inside, ?_⟩
  rw [startOf_cons_succ, Nat.add_assoc]

/-- No jump leads into the middle of a segment. -/
theorem startsAt_target (address : Nat) (instructions : List Instruction) {target : Nat}
    (member : target ∈ targets) (low : address ≤ target)
    (high : target ≤ address + instructions.length) :
    StartsAt address (segments constants targets address instructions) target := by
  induction address, instructions using segments.induct constants targets with
  | case1 address load one change store rest direction steps enters ih =>
    rw [segments, steps]
    simp only [enters, if_true]
    rcases Nat.eq_or_lt_of_le low with rfl | after
    · exact .here _ _
    · exact (ih after (by simp only [List.length_cons] at high ⊢; omega)).cons
  | case2 address load one change store rest direction steps enters ih =>
    rw [segments, steps]
    simp only [enters]
    rcases Nat.eq_or_lt_of_le low with rfl | after
    · exact .here _ _
    · -- A target inside the span would have kept it from being fused.
      have behind : address + spanLength ≤ target := by
        have none_inside := enters
        simp only [entersSpan, List.any_eq_true, decide_eq_true_eq, not_exists, not_and,
          Nat.not_lt] at none_inside
        exact none_inside target member after
      have rest_high : target ≤ address + spanLength + rest.length := by
        simp only [List.length_cons, spanLength] at high ⊢
        omega
      exact (ih behind rest_high).cons
  | case3 address load one change store rest steps ih =>
    rw [segments, steps]
    rcases Nat.eq_or_lt_of_le low with rfl | after
    · exact .here _ _
    · exact (ih after (by simp only [List.length_cons] at high ⊢; omega)).cons
  | case4 address first rest short ih =>
    rw [segments]
    · rcases Nat.eq_or_lt_of_le low with rfl | after
      · exact .here _ _
      · exact (ih after (by simp only [List.length_cons] at high ⊢; omega)).cons
    · exact short
  | case5 address =>
    obtain rfl : target = address := Nat.le_antisymm high low
    exact .here _ _

end Cutting

section Covered

variable {constants : Array Int64} {segments : List Segment} {instructions : List Instruction}

/-- A stream is as long as the segments that cover it. -/
theorem Cuts.length_eq (cuts : Cuts constants segments instructions) :
    instructions.length = startOf segments segments.length := by
  induction cuts with
  | nil => rfl
  | kept i cuts ih =>
    rw [List.length_cons, List.length_cons, startOf_cons_succ, ih, length]
    omega
  | fused steps cuts ih =>
    simp only [List.length_cons, startOf_cons_succ, ih, length, spanLength]
    omega

/-- The segments from an index on cover the instructions from its start on. -/
theorem Cuts.drop (cuts : Cuts constants segments instructions) {k : Nat}
    (inside : k ≤ segments.length) :
    Cuts constants (segments.drop k) (instructions.drop (startOf segments k)) := by
  induction cuts generalizing k with
  | nil => simpa using Cuts.nil
  | kept i cuts ih =>
    cases k with
    | zero => exact .kept i cuts
    | succ k =>
      have later := ih (Nat.le_of_succ_le_succ inside)
      rw [startOf_cons_succ, List.drop_succ_cons, length, Nat.add_comm 1]
      exact later
  | fused steps cuts ih =>
    cases k with
    | zero => exact .fused steps cuts
    | succ k =>
      have later := ih (Nat.le_of_succ_le_succ inside)
      rw [startOf_cons_succ, List.drop_succ_cons, length, Nat.add_comm spanLength]
      exact later

end Covered

end Segment

namespace Fusion

/-- What the jumps of a stream that is not refused lead to. -/
theorem target_mem_of_targets {length address : Nat} {instructions : List Instruction}
    {found : List Nat} (accepted : targets length address instructions = .ok found)
    {k : Nat} {i : Instruction} (here : instructions[k]? = some i) (jumps : i.opcode.isJump = true) :
    ∃ target ∈ found, i.target (address + k) = (target : Int) ∧ target ≤ length := by
  induction instructions generalizing address found k with
  | nil => cases here
  | cons first rest ih =>
    unfold targets at accepted
    dsimp only at accepted
    by_cases jump : first.opcode.isJump = true
    · rw [if_pos jump] at accepted
      split at accepted
      next bounds =>
        cases others : targets length (address + 1) rest with
        | error e => rw [others] at accepted; cases accepted
        | ok later =>
          rw [others] at accepted
          cases accepted
          cases k with
          | zero =>
            cases here
            refine ⟨(i.target address).toNat, List.mem_cons_self, ?_, ?_⟩
            · rw [Nat.add_zero, Int.toNat_of_nonneg bounds.1]
            · omega
          | succ k =>
            obtain ⟨target, member, leads, inside⟩ := ih others (by simpa using here)
            refine ⟨target, List.mem_cons_of_mem _ member, ?_, inside⟩
            rw [← leads, Nat.add_comm k 1, ← Nat.add_assoc]
      next => cases accepted
    · rw [if_neg jump] at accepted
      cases k with
      | zero =>
        cases here
        exact absurd jumps jump
      | succ k =>
        obtain ⟨target, member, leads, inside⟩ := ih accepted (by simpa using here)
        refine ⟨target, member, ?_, inside⟩
        rw [← leads, Nat.add_comm k 1, ← Nat.add_assoc]

/-- What the segments of a stream become. -/
theorem emitAll_spec {destinations : Array Nat} {source destination : Nat}
    {segments : List Segment} {emitted : List Instruction}
    (accepted : emitAll destinations source destination segments = .ok emitted) :
    emitted.length = segments.length ∧
      ∀ {k : Nat} {segment : Segment}, segments[k]? = some segment →
        ∃ i, emitted[k]? = some i ∧
          emit destinations (source + Segment.startOf segments k) (destination + k) segment =
            .ok i := by
  induction segments generalizing source destination emitted with
  | nil =>
    cases accepted
    exact ⟨rfl, by simp⟩
  | cons segment rest ih =>
    unfold emitAll at accepted
    cases first : emit destinations source destination segment with
    | error e => rw [first] at accepted; cases accepted
    | ok i =>
      cases others : emitAll destinations (source + segment.length) (destination + 1) rest with
      | error e => rw [first, others] at accepted; cases accepted
      | ok later =>
        rw [first, others] at accepted
        cases accepted
        obtain ⟨length, each⟩ := ih others
        refine ⟨by simp [length], ?_⟩
        intro k found here
        cases k with
        | zero =>
          cases here
          exact ⟨i, rfl, by simpa using first⟩
        | succ k =>
          obtain ⟨j, there, emits⟩ := each (by simpa using here)
          refine ⟨j, by simpa using there, ?_⟩
          rw [Segment.startOf_cons_succ, ← Nat.add_assoc, Nat.add_comm k 1, ← Nat.add_assoc]
          exact emits

/-- What a kept instruction has become: a jump leads to where its target has gone, and any other
instruction is the same. -/
def Follows (segments : List Segment) (k : Nat) (i fused : Instruction) : Prop :=
  if i.opcode.isJump then
    fused.opcode = i.opcode ∧ ∃ j ≤ segments.length,
      i.target (Segment.startOf segments k) = (Segment.startOf segments j : Int) ∧
        fused.target k = (j : Int)
  else fused = i

namespace Follows

variable {segments : List Segment} {k : Nat} {i fused : Instruction}

/-- An instruction that is no jump is kept as it is. -/
theorem eq_of_straight (follows : Follows segments k i fused)
    (straight : i.opcode.isJump = false) : fused = i := by
  rw [Follows, straight] at follows
  exact follows

/-- A jump leads to the segment that its target has become. -/
theorem leads (follows : Follows segments k i fused) (jumps : i.opcode.isJump = true) :
    fused.opcode = i.opcode ∧ ∃ j ≤ segments.length,
      i.target (Segment.startOf segments k) = (Segment.startOf segments j : Int) ∧
        fused.target k = (j : Int) := by
  rwa [Follows, if_pos jumps] at follows

/-- A kept instruction does the same as before. -/
theorem opcode_eq (follows : Follows segments k i fused) : fused.opcode = i.opcode := by
  cases jump : i.opcode.isJump with
  | true => exact (follows.leads jump).1
  | false => exact congrArg Instruction.opcode (follows.eq_of_straight jump)

end Follows

/-- Two functions line up along a list of segments: what is found at an address of the second one
stands for what is found at the start of a segment of the first one. -/
structure Aligned (p : Program) (segments : List Segment) (plain fused : Function) : Prop where
  same : fused = plain.withCode fused.code
  plainCount : plain.code.instructionCount = Segment.startOf segments segments.length
  fusedCount : fused.code.instructionCount = segments.length
  kept : ∀ {k : Nat} {i : Instruction}, segments[k]? = some (.kept i) →
    plain.code.Has (Segment.startOf segments k) i ∧
      ∃ j, fused.code.Has k j ∧ Follows segments k i j
  span : ∀ {k : Nat} {direction : Direction} {slot : BitVec 24},
    segments[k]? = some (.fused direction slot) →
    fused.code.Has k ⟨.stepLocal direction, slot⟩ ∧
      ∃ load one change store,
        Segment.direction? p.intConstants load one change store = some direction ∧
        load.operand = slot ∧
        plain.code.Has (Segment.startOf segments k) load ∧
        plain.code.Has (Segment.startOf segments k + 1) one ∧
        plain.code.Has (Segment.startOf segments k + 2) change ∧
        plain.code.Has (Segment.startOf segments k + 3) store

/-- An emitted jump leads to where its target has gone. -/
theorem target_of_emit {segments : List Segment} {source destination j : Nat} {i fused : Instruction}
    (jumps : i.opcode.isJump = true)
    (accepted : emit (Segment.destinations 0 segments).toArray source destination (.kept i) =
      .ok fused)
    (inside : j ≤ segments.length) (leads : i.target source = (Segment.startOf segments j : Int)) :
    fused.opcode = i.opcode ∧ fused.target destination = (j : Int) := by
  have goes : (Segment.destinations 0 segments)[Segment.startOf segments j]? = some j := by
    rw [Segment.getElem?_destinations 0 segments (Segment.startOf_le inside),
      Segment.relocate_startOf inside, Nat.zero_add]
  have found : ((Segment.destinations 0 segments).toArray[(i.target source).toNat]?).getD 0 = j := by
    rw [leads, Int.toNat_natCast, List.getElem?_toArray, goes, Option.getD_some]
  unfold emit at accepted
  dsimp only at accepted
  rw [if_pos jumps, found] at accepted
  split at accepted
  next fits =>
    cases accepted
    refine ⟨rfl, ?_⟩
    rw [Instruction.target, Instruction.offset_make fits.1 fits.2]
    omega
  next => cases accepted

section Fusing

variable {p : Program} {f : Function} {instructions : List Instruction} {found : List Nat}

/-- The address of a kept instruction, and where it leads if it is a jump. -/
theorem jump_leads (jumps : targets instructions.length 0 instructions = .ok found)
    {segments : List Segment}
    (cut : segments = Segment.segments p.intConstants found 0 instructions)
    {address : Nat} {i : Instruction} (here : instructions[address]? = some i)
    (jump : i.opcode.isJump = true) :
    ∃ j ≤ segments.length, i.target address = (Segment.startOf segments j : Int) := by
  obtain ⟨target, member, leads, high⟩ := target_mem_of_targets jumps here jump
  obtain ⟨j, inside, start⟩ := Segment.startsAt_target p.intConstants found 0 instructions member
    (Nat.zero_le _) (by omega)
  rw [← cut] at inside start
  rw [Nat.zero_add] at leads start
  exact ⟨j, inside, by rw [leads, start]⟩

/-- A kept instruction that is emitted follows the original. -/
theorem follows_of_emit (jumps : targets instructions.length 0 instructions = .ok found)
    {segments : List Segment}
    (cut : segments = Segment.segments p.intConstants found 0 instructions) {k : Nat}
    {i j : Instruction} (here : instructions[Segment.startOf segments k]? = some i)
    (emits : emit (Segment.destinations 0 segments).toArray (Segment.startOf segments k) k
      (.kept i) = .ok j) : Follows segments k i j := by
  unfold Follows
  split
  next jump =>
    obtain ⟨target, inside, leads⟩ := jump_leads jumps cut here jump
    obtain ⟨opcode, goes⟩ := target_of_emit jump emits inside leads
    exact ⟨opcode, target, inside, leads, goes⟩
  next straight =>
    simp only [emit, straight] at emits
    cases emits
    rfl

/-- The stream that the segments of a function become lines up with the function. -/
theorem aligned_of_emitAll (decoded : f.code.decode = .ok instructions)
    (jumps : targets instructions.length 0 instructions = .ok found)
    {segments : List Segment}
    (cut : segments = Segment.segments p.intConstants found 0 instructions)
    {emitted : List Instruction}
    (emission : emitAll (Segment.destinations 0 segments).toArray 0 0 segments = .ok emitted) :
    Aligned p segments f (f.withCode (.ofList emitted)) := by
  have plain : f.code.Spells instructions := Code.spells_of_decode decoded
  have fused : (Code.ofList emitted).Spells emitted := Code.spells_ofList emitted
  have cuts : Segment.Cuts p.intConstants segments instructions := by
    rw [cut]
    exact Segment.segments_cuts p.intConstants found 0 instructions
  obtain ⟨count, emits⟩ := emitAll_spec emission
  have each (start j : Nat) : instructions[start + j]? = (instructions.drop start)[j]? :=
    List.getElem?_drop.symm
  have covered {k : Nat} {segment : Segment} (here : segments[k]? = some segment) :
      Segment.Cuts p.intConstants (segment :: segments.drop (k + 1))
        (instructions.drop (Segment.startOf segments k)) := by
    obtain ⟨inside, rfl⟩ := List.getElem?_eq_some_iff.mp here
    have dropped := cuts.drop (Nat.le_of_lt inside)
    rwa [List.drop_eq_getElem_cons inside] at dropped
  constructor
  case same => rfl
  case plainCount => rw [plain.count, cuts.length_eq]
  case fusedCount =>
    change (Code.ofList emitted).instructionCount = _
    rw [fused.count, count]
  case kept =>
    intro k i here
    have from_here := covered here
    have at_start : instructions[Segment.startOf segments k]? = some i := by
      have first := each (Segment.startOf segments k) 0
      generalize instructions.drop (Segment.startOf segments k) = rest at from_here first
      cases from_here
      exact first
    obtain ⟨j, there, emits⟩ := emits here
    refine ⟨plain.inside at_start, j, fused.inside there, ?_⟩
    rw [Nat.zero_add, Nat.zero_add] at emits
    exact follows_of_emit jumps cut at_start emits
  case span =>
    intro k direction slot here
    have from_here := covered here
    obtain ⟨j, there, emits⟩ := emits here
    cases emits
    refine ⟨fused.inside there, ?_⟩
    have places := each (Segment.startOf segments k)
    generalize instructions.drop (Segment.startOf segments k) = rest at from_here places
    cases from_here with
    | fused steps _ =>
      exact ⟨_, _, _, _, steps, rfl, plain.inside (places 0), plain.inside (places 1),
        plain.inside (places 2), plain.inside (places 3)⟩

end Fusing

/-- Fusing a function leaves it alone or gives one that lines up with it. -/
theorem aligned_of_fuse {p : Program} {f : Function} {fusion : Fusion}
    (fused : f.fuse p = .ok fusion) :
    fusion.function = f ∨ ∃ segments, Aligned p segments f fusion.function := by
  unfold Function.fuse at fused
  cases decoded : f.code.decode with
  | error e => rw [decoded] at fused; cases fused
  | ok instructions =>
    cases jumps : targets instructions.length 0 instructions with
    | error e => rw [decoded] at fused; simp only [bind, Except.bind, jumps] at fused; cases fused
    | ok found =>
      rw [decoded] at fused
      simp only [bind, Except.bind, jumps] at fused
      split at fused
      next => cases fused; exact .inl rfl
      next =>
        split at fused
        next => cases fused
        next emitted emission =>
          cases fused
          exact .inr ⟨_, aligned_of_emitAll decoded jumps rfl emission⟩

end Fusion

end HotPath
