import HotPath.Proofs.Code.Reading
import HotPath.Proofs.Fusion.FixedPoint

/-!
# What fusing refuses

A stream is refused for what is wrong with it and for nothing else: it cannot be decoded, or one
of its jumps leaves it. `Refused` says which of these is reported. Fusing has a third
check, on the distances that it computes itself, which never fails. A segment stands for at least
one instruction, so two places come no farther apart by fusing (`Segment.startOf_spread`)
and stay in their order: a distance that was held by an operand still is (`Relocated.fits`).
-/

namespace HotPath

namespace Fusion

/-- An instruction that stands at `address` in a stream of some length is a jump that leads out of
the stream. -/
def Leaves (length address : Nat) (i : Instruction) : Prop :=
  i.opcode.isJump = true ∧ (i.target address < 0 ∨ (length : Int) < i.target address)

/-- A jump at an address of the stream leads out of it. -/
def Stray (instructions : List Instruction) (address : Nat) (i : Instruction) : Prop :=
  instructions[address]? = some i ∧ Leaves instructions.length address i

/-- What is wrong with a stream that is refused. Of several jumps that leave the stream, the one
with the lowest address is reported. -/
inductive Refused (code : Code) : CodeError → Prop where
  | flawed {error : CodeError} (flaw : code.Flaw error) : Refused code error
  | stray {instructions : List Instruction} (decoded : code.decode = .ok instructions)
    {address : Nat} {i : Instruction} (strays : Stray instructions address i)
    (lowest : ∀ earlier < address, ∀ j, ¬ Stray instructions earlier j) :
    Refused code (.jumpOutOfRange address (i.target address) instructions.length)

section Targets

variable {instructions : List Instruction} {length : Nat}

/-- A first instruction that leaves the stream is what the stream is refused for. -/
theorem targets_of_leaves {address : Nat} {first : Instruction} {rest : List Instruction}
    (leaves : Leaves length address first) :
    targets length address (first :: rest) =
      .error (.jumpOutOfRange address (first.target address) length) := by
  obtain ⟨jumps, outside⟩ := leaves
  have apart : ¬ (0 ≤ first.target address ∧ first.target address ≤ length) := by omega
  simp only [targets, jumps, apart, if_true, if_false]

/-- Unless the first instruction leaves the stream, whatever is refused comes after it. -/
theorem targets_of_stays {address : Nat} {first : Instruction} {rest : List Instruction}
    {error : CodeError} (stays : ¬ Leaves length address first) :
    targets length address (first :: rest) = .error error ↔
      targets length (address + 1) rest = .error error := by
  rw [targets]
  by_cases jumps : first.opcode.isJump = true
  · have inside : 0 ≤ first.target address ∧ first.target address ≤ length := by
      by_contra outside
      exact stays ⟨jumps, by omega⟩
    rw [if_pos jumps, if_pos inside]
    cases targets length (address + 1) rest <;> simp [bind, Except.bind, pure, Except.pure]
  · rw [if_neg jumps]

/-- Of the jumps that leave a stream of some length, the one with the lowest address is refused. -/
theorem targets_eq_error_iff {address : Nat} {error : CodeError} :
    targets length address instructions = .error error ↔
      ∃ (k : Nat) (i : Instruction), instructions[k]? = some i ∧ Leaves length (address + k) i ∧
        error = .jumpOutOfRange (address + k) (i.target (address + k)) length ∧
        ∀ earlier < k, ∀ j, instructions[earlier]? = some j →
          ¬ Leaves length (address + earlier) j := by
  induction instructions generalizing address with
  | nil => simp [targets]
  | cons first rest ih =>
    have shift (k : Nat) : address + 1 + k = address + (k + 1) := by omega
    by_cases leaves : Leaves length address first
    · rw [targets_of_leaves leaves]
      constructor
      · rintro ⟨⟩
        exact ⟨0, first, rfl, leaves, rfl, by simp⟩
      · rintro ⟨k, i, here, -, rfl, before⟩
        cases k with
        | zero =>
          cases here
          rfl
        | succ k => exact absurd leaves (before 0 (Nat.succ_pos k) first rfl)
    · rw [targets_of_stays leaves, ih]
      constructor
      · rintro ⟨k, i, here, outside, same, before⟩
        rw [shift] at outside same
        refine ⟨k + 1, i, here, outside, same, fun earlier low j there => ?_⟩
        cases earlier with
        | zero =>
          cases there
          exact leaves
        | succ earlier => exact shift earlier ▸ before earlier (Nat.lt_of_succ_lt_succ low) j there
      · rintro ⟨k, i, here, outside, same, before⟩
        cases k with
        | zero =>
          cases here
          exact absurd outside leaves
        | succ k =>
          rw [← shift] at outside same
          exact ⟨k, i, here, outside, same, fun earlier low j there =>
            shift earlier ▸ before (earlier + 1) (Nat.succ_lt_succ low) j there⟩

/-- A stream has its lowest stray jump refused. -/
theorem targets_eq_error_iff_stray {error : CodeError} :
    targets instructions.length 0 instructions = .error error ↔
      ∃ (address : Nat) (i : Instruction), Stray instructions address i ∧
        error = .jumpOutOfRange address (i.target address) instructions.length ∧
        ∀ earlier < address, ∀ j, ¬ Stray instructions earlier j := by
  rw [targets_eq_error_iff]
  simp only [Nat.zero_add, Stray, and_assoc, not_and]

end Targets

end Fusion

namespace Segment

variable {segments : List Segment}

/-- Two segments start at least as far apart as they stand in the list. -/
theorem startOf_spread {k j : Nat} (before : k ≤ j) (inside : j ≤ segments.length) :
    startOf segments k + (j - k) ≤ startOf segments j := by
  induction j with
  | zero =>
    obtain rfl : k = 0 := Nat.le_zero.mp before
    exact Nat.le_refl _
  | succ j ih =>
    rcases Nat.eq_or_lt_of_le before with rfl | earlier
    · omega
    · have here := List.getElem?_eq_getElem inside
      have closer := ih (Nat.le_of_lt_succ earlier) (Nat.le_of_succ_le inside)
      have positive := length_pos segments[j]
      rw [startOf_succ here]
      omega

/-- The table of destinations has an entry for every address of the stream and for its end. -/
theorem length_destinations (destination : Nat) (segments : List Segment) :
    (destinations destination segments).length = startOf segments segments.length + 1 := by
  induction segments generalizing destination with
  | nil => rfl
  | cons segment rest ih =>
    rw [destinations, List.length_append, List.length_replicate, ih, List.length_cons,
      startOf_cons_succ, Nat.add_assoc]

end Segment

namespace Fusion

/-- A jump from `source` to `target` that moves to `destination` and is led to `goal`. Both places
are in the table of destinations, and the jump keeps its direction and gets no longer. -/
structure Relocated (table : List Nat) (i : Instruction) (source destination target goal : Nat) :
    Prop where
  leads : i.target source = (target : Int)
  stands : table[source]? = some destination
  goes : table[target]? = some goal
  direction : Int.sign ((goal : Int) - destination) = Int.sign i.offset
  shorter : ((goal : Int) - destination).natAbs ≤ i.offset.natAbs

section Relocation

variable {table : List Nat} {i : Instruction} {source destination target goal : Nat}

/-- An operand holds the distance that a jump has after its move, as it lies between zero and one
that an operand held before. -/
theorem Relocated.fits (relocated : Relocated table i source destination target goal) :
    Instruction.minOffset ≤ (goal : Int) - destination ∧
      (goal : Int) - destination ≤ Instruction.maxOffset := by
  have low : -0x800000 ≤ i.operand.toInt := BitVec.le_toInt i.operand
  have high : i.operand.toInt < 0x800000 := BitVec.toInt_lt
  have direction := relocated.direction
  have shorter := relocated.shorter
  rw [Instruction.offset_eq_toInt] at direction shorter
  unfold Instruction.minOffset Instruction.maxOffset
  rcases Int.lt_trichotomy i.operand.toInt 0 with back | still | ahead
  · rw [Int.sign_eq_neg_one_of_neg back, Int.sign_eq_neg_one_iff_neg] at direction
    omega
  · omega
  · rw [Int.sign_eq_one_of_pos ahead, Int.sign_eq_one_iff_pos] at direction
    omega

/-- A jump is emitted with the distance that it has after its move. -/
theorem Relocated.emit_eq (relocated : Relocated table i source destination target goal)
    (jumps : i.opcode.isJump = true) :
    emit table.toArray source destination (.kept i) =
      .ok (.make i.opcode ((goal : Int) - destination)) := by
  have found : (table.toArray[(i.target source).toNat]?).getD 0 = goal := by
    rw [relocated.leads, Int.toNat_natCast, List.getElem?_toArray, relocated.goes, Option.getD_some]
  unfold emit
  dsimp only
  rw [if_pos jumps, found, if_pos relocated.fits]

end Relocation

section Accepted

variable {p : Program} {instructions : List Instruction} {found : List Nat}
  {segments : List Segment}

/-- A jump between the starts of two segments goes from one to the other after its move. -/
theorem relocated_of_leads {k j : Nat} {i : Instruction} (here : k ≤ segments.length)
    (inside : j ≤ segments.length)
    (leads : i.target (Segment.startOf segments k) = (Segment.startOf segments j : Int)) :
    Relocated (Segment.destinations 0 segments) i (Segment.startOf segments k) k
      (Segment.startOf segments j) j := by
  have goes {n : Nat} (inside : n ≤ segments.length) :
      (Segment.destinations 0 segments)[Segment.startOf segments n]? = some n := by
    rw [Segment.getElem?_destinations 0 segments (Segment.startOf_le inside),
      Segment.relocate_startOf inside, Nat.zero_add]
  have distance : i.offset =
      (Segment.startOf segments j : Int) - Segment.startOf segments k := by
    rw [Instruction.target] at leads
    omega
  refine ⟨leads, goes here, goes inside, ?_, ?_⟩
  · rw [distance]
    rcases Nat.lt_trichotomy k j with ahead | rfl | back
    · have spread := Segment.startOf_spread (Nat.le_of_lt ahead) inside
      rw [Int.sign_eq_one_of_pos (by omega), Int.sign_eq_one_of_pos (by omega)]
    · rw [Int.sub_self, Int.sub_self]
    · have spread := Segment.startOf_spread (Nat.le_of_lt back) here
      rw [Int.sign_eq_neg_one_of_neg (by omega), Int.sign_eq_neg_one_of_neg (by omega)]
  · rw [distance]
    rcases Nat.le_total k j with ahead | back
    · have spread := Segment.startOf_spread ahead inside
      omega
    · have spread := Segment.startOf_spread back here
      omega

/-- Segments that are emitted one by one are emitted together. -/
theorem exists_emitAll {destinations : Array Nat} {source destination : Nat}
    (each : ∀ {k : Nat} {segment : Segment}, segments[k]? = some segment →
      ∃ i, emit destinations (source + Segment.startOf segments k) (destination + k) segment =
        .ok i) :
    ∃ emitted, emitAll destinations source destination segments = .ok emitted := by
  induction segments generalizing source destination with
  | nil => exact ⟨[], rfl⟩
  | cons segment rest ih =>
    obtain ⟨first, emits⟩ := each (k := 0) rfl
    rw [Segment.startOf_zero, Nat.add_zero, Nat.add_zero] at emits
    have later : ∃ emitted,
        emitAll destinations (source + segment.length) (destination + 1) rest = .ok emitted := by
      refine ih fun {k other} here => ?_
      have emits := each (k := k + 1) here
      rwa [Segment.startOf_cons_succ, ← Nat.add_assoc, Nat.add_comm k 1, ← Nat.add_assoc] at emits
    obtain ⟨others, follow⟩ := later
    refine ⟨first :: others, ?_⟩
    rw [emitAll, emits, follow]
    rfl

variable (accepted : targets instructions.length 0 instructions = .ok found)
  (cut : segments = Segment.segments p.intConstants found 0 instructions)

include accepted cut

/-- A jump that is kept is relocated. -/
theorem relocated_of_kept {k : Nat} {i : Instruction} (here : segments[k]? = some (.kept i))
    (jumps : i.opcode.isJump = true) :
    ∃ target goal, Relocated (Segment.destinations 0 segments) i (Segment.startOf segments k) k
      target goal := by
  have divides : Divides p instructions segments := cut ▸ divides_segments accepted
  have marks := divides.marks here
  obtain ⟨inside, -⟩ := List.getElem?_eq_some_iff.mp here
  cases marks with
  | kept stands single =>
    obtain ⟨j, within, leads⟩ := jump_leads accepted cut stands jumps
    exact ⟨_, j, relocated_of_leads (Nat.le_of_lt inside) within leads⟩

/-- The segments of a stream that is not refused are all emitted. -/
theorem exists_emitAll_of_accepted :
    ∃ emitted, emitAll (Segment.destinations 0 segments).toArray 0 0 segments = .ok emitted := by
  refine exists_emitAll fun {k segment} here => ?_
  rw [Nat.zero_add, Nat.zero_add]
  cases segment with
  | fused direction slot => exact ⟨_, rfl⟩
  | kept i =>
    by_cases jumps : i.opcode.isJump = true
    · obtain ⟨target, goal, relocated⟩ := relocated_of_kept accepted cut here jumps
      exact ⟨_, relocated.emit_eq jumps⟩
    · exact ⟨i, if_neg jumps⟩

/-- Every jump of a stream that is not refused is kept and relocated. -/
theorem relocated_of_jump {address : Nat} {i : Instruction}
    (here : instructions[address]? = some i) (jumps : i.opcode.isJump = true) :
    ∃ k target goal, segments[k]? = some (.kept i) ∧ target ≤ instructions.length ∧
      Relocated (Segment.destinations 0 segments) i address k target goal := by
  obtain ⟨emitted, emission⟩ := exists_emitAll_of_accepted accepted cut
  have fuses := fuses_of_emitAll accepted cut emission
  obtain ⟨k, kept, rfl⟩ := fuses.kept_of_jump here jumps
  obtain ⟨target, goal, relocated⟩ := relocated_of_kept accepted cut kept jumps
  obtain ⟨other, -, leads, inside⟩ := target_mem_of_targets accepted here jumps
  rw [Nat.zero_add, relocated.leads] at leads
  exact ⟨k, target, goal, kept, by omega, relocated⟩

end Accepted

section Fusing

variable {p : Program} {f : Function} {instructions : List Instruction} {found : List Nat}

/-- A function whose jumps stay inside it is fused. -/
theorem exists_fuse (decoded : f.code.decode = .ok instructions)
    (accepted : targets instructions.length 0 instructions = .ok found) :
    ∃ fusion, f.fuse p = .ok fusion := by
  obtain ⟨emitted, emission⟩ := exists_emitAll_of_accepted (p := p) accepted rfl
  simp only [Function.fuse, decoded, bind, Except.bind, accepted]
  split
  · exact ⟨_, rfl⟩
  · rw [emission]
    exact ⟨_, rfl⟩

/-- Fusing fails where decoding fails or looking for the targets of the jumps does. -/
theorem fuse_eq_error_iff {error : CodeError} :
    f.fuse p = .error error ↔ f.code.decode = .error error ∨
      ∃ instructions, f.code.decode = .ok instructions ∧
        targets instructions.length 0 instructions = .error error := by
  cases decoded : f.code.decode with
  | error e => simp [Function.fuse, decoded, bind, Except.bind]
  | ok instructions =>
    cases jumps : targets instructions.length 0 instructions with
    | error e => simp [Function.fuse, decoded, bind, Except.bind, jumps]
    | ok found =>
      obtain ⟨fusion, fused⟩ := exists_fuse (p := p) decoded jumps
      simp [fused, jumps]

/-- Fusing fails exactly for the reasons for which code is refused. -/
theorem fuse_eq_error_iff_refused {error : CodeError} :
    f.fuse p = .error error ↔ Refused f.code error := by
  rw [fuse_eq_error_iff, Code.decode_eq_error_iff_flaw]
  constructor
  · rintro (flaw | ⟨instructions, decoded, refused⟩)
    · exact .flawed flaw
    · obtain ⟨address, i, strays, rfl, lowest⟩ := targets_eq_error_iff_stray.mp refused
      exact .stray decoded strays lowest
  · rintro (flaw | ⟨decoded, strays, lowest⟩)
    · exact .inl flaw
    · exact .inr ⟨_, decoded, targets_eq_error_iff_stray.mpr ⟨_, _, strays, rfl, lowest⟩⟩

/-- The jumps of a stream whose targets are accepted stay inside it. -/
theorem not_stray_of_targets (accepted : targets instructions.length 0 instructions = .ok found)
    (address : Nat) (i : Instruction) : ¬ Stray instructions address i := by
  rintro ⟨here, jumps, leaves⟩
  obtain ⟨target, -, leads, inside⟩ := target_mem_of_targets accepted here jumps
  rw [Nat.zero_add] at leads
  omega

/-- What is fused is what can be decoded and has no stray jump. -/
theorem exists_fuse_iff :
    (∃ fusion, f.fuse p = .ok fusion) ↔ ∃ instructions, f.code.decode = .ok instructions ∧
      ∀ address i, ¬ Stray instructions address i := by
  constructor
  · rintro ⟨fusion, fused⟩
    cases decoded : f.code.decode with
    | error e => simp [Function.fuse, decoded, bind, Except.bind] at fused
    | ok instructions =>
      cases jumps : targets instructions.length 0 instructions with
      | error e => simp [Function.fuse, decoded, bind, Except.bind, jumps] at fused
      | ok found => exact ⟨instructions, rfl, not_stray_of_targets jumps⟩
  · rintro ⟨instructions, decoded, stay⟩
    cases jumps : targets instructions.length 0 instructions with
    | error e =>
      obtain ⟨address, i, strays, -⟩ := targets_eq_error_iff_stray.mp jumps
      exact absurd strays (stay address i)
    | ok found => exact exists_fuse decoded jumps

/-- Fusing refuses what is malformed and nothing else. An incomplete record is reported before
anything else, then the lowest record that is no instruction, then the lowest jump that leaves
the stream; whatever has none of these is fused. No distance that is computed along the way is
too long. In a stream that is not refused every jump is kept, the table of destinations has an
entry for where it stands and for where it leads, and the distance between these two entries
goes in the direction of the jump, is no longer than it, and is what the jump is emitted with. -/
theorem fuse_refuses (p : Program) (f : Function) :
    (∀ error, f.fuse p = .error error ↔ Refused f.code error) ∧
    ((∃ fusion, f.fuse p = .ok fusion) ↔ ∃ instructions, f.code.decode = .ok instructions ∧
      ∀ address i, ¬ Stray instructions address i) ∧
    (∀ offset, f.fuse p ≠ .error (.offsetOverflow offset)) ∧
    ∀ instructions found segments, f.code.decode = .ok instructions →
      targets instructions.length 0 instructions = .ok found →
      segments = Segment.segments p.intConstants found 0 instructions →
      (Segment.destinations 0 segments).length = instructions.length + 1 ∧
      ∀ (address : Nat) (i : Instruction), instructions[address]? = some i →
        i.opcode.isJump = true →
        ∃ k target goal, segments[k]? = some (.kept i) ∧ target ≤ instructions.length ∧
          Relocated (Segment.destinations 0 segments) i address k target goal ∧
          emit (Segment.destinations 0 segments).toArray address k (.kept i) =
            .ok (.make i.opcode ((goal : Int) - k)) := by
  refine ⟨fun _ => fuse_eq_error_iff_refused, exists_fuse_iff, ?_, ?_⟩
  · intro offset refused
    cases fuse_eq_error_iff_refused.mp refused with
    | flawed flaw => cases flaw
  · intro instructions found segments decoded accepted cut
    have divides : Divides p instructions segments := cut ▸ divides_segments accepted
    refine ⟨by rw [Segment.length_destinations, divides.whole], fun address i here jumps => ?_⟩
    obtain ⟨k, target, goal, kept, inside, relocated⟩ := relocated_of_jump accepted cut here jumps
    exact ⟨k, target, goal, kept, inside, relocated, relocated.emit_eq jumps⟩

end Fusing

-- The jump at the start leaves the stream by one address, the one behind it by more.
example : (Function.make "f" [] .void 0
    (.ofList [.make (.jump .always) 3, .make (.jump .always) (-7)])).fuse countUpProgram =
      .error (.jumpOutOfRange 0 3 2) := rfl

end Fusion

end HotPath
