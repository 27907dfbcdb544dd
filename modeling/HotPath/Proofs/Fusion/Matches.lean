import HotPath.Proofs.Fusion.Alignment
import Mathlib.Data.Nat.Count

/-!
# Fusible spans, whatever the order in which they are looked for

`Segment.segments` walks along a stream and fuses what it comes across. Here fusible spans are
described one by one: `FusibleAt` says of an address, without regard to any other span, that
four instructions there step a slot and that no jump leads into their midst. Such spans never
overlap (`fusible_apart`), so a walk from the front meets every one of them: `Divides` says
that the segments are the fusible spans and the single instructions between them.

`moved` counts the addresses before an address that are not inside a span, which is where the
address goes when every span becomes one instruction.
-/

namespace HotPath

/-- The operation with the constant one that steps a slot. -/
def Direction.operation : Direction → IntOperation
  | up => .add
  | down => .sub

namespace Fusion

/-- A jump of the stream leads to this address. -/
def Targeted (instructions : List Instruction) (target : Nat) : Prop :=
  ∃ (address : Nat) (i : Instruction), instructions[address]? = some i ∧
    i.opcode.isJump = true ∧ i.target address = (target : Int)

/-- The four instructions at an address load a slot, push the constant one, add or subtract it,
and store the same slot. -/
def StepsSlot (p : Program) (instructions : List Instruction) (direction : Direction)
    (address : Nat) : Prop :=
  ∃ load ∈ instructions[address]?, ∃ one ∈ instructions[address + 1]?,
    ∃ change ∈ instructions[address + 2]?, ∃ store ∈ instructions[address + 3]?,
      load.opcode = .loadLocal ∧ one.opcode = .pushInt ∧
      change.opcode = .intBinary direction.operation ∧ store.opcode = .storeLocal ∧
      load.operand = store.operand ∧ p.intConstants[one.index]? = some 1

/-- The four instructions at an address step a slot, and no jump leads behind the first of them. -/
def Fusible (p : Program) (instructions : List Instruction) (direction : Direction)
    (address : Nat) : Prop :=
  StepsSlot p instructions direction address ∧
    ∀ inside ∈ [address + 1, address + 2, address + 3], ¬ Targeted instructions inside

/-- A fusible span starts at an address. -/
def FusibleAt (p : Program) (instructions : List Instruction) (address : Nat) : Prop :=
  ∃ direction, Fusible p instructions direction address

/-- An address is inside a fusible span, behind its first instruction. -/
def Covered (p : Program) (instructions : List Instruction) (address : Nat) : Prop :=
  ∃ start < address, address < start + 4 ∧ FusibleAt p instructions start

section Decisions

variable (p : Program) (instructions : List Instruction)

instance (target : Nat) : Decidable (Targeted instructions target) :=
  decidable_of_iff (∃ pair ∈ instructions.zipIdx, pair.1.opcode.isJump = true ∧
    pair.1.target pair.2 = (target : Int)) (by
      constructor
      · rintro ⟨⟨i, address⟩, member, jumps, leads⟩
        exact ⟨address, i, List.mem_zipIdx_iff_getElem?.mp member, jumps, leads⟩
      · rintro ⟨address, i, here, jumps, leads⟩
        exact ⟨(i, address), List.mem_zipIdx_iff_getElem?.mpr here, jumps, leads⟩)

instance (direction : Direction) (address : Nat) :
    Decidable (StepsSlot p instructions direction address) :=
  inferInstanceAs (Decidable (∃ load ∈ instructions[address]?, ∃ one ∈ instructions[address + 1]?,
    ∃ change ∈ instructions[address + 2]?, ∃ store ∈ instructions[address + 3]?,
      load.opcode = .loadLocal ∧ one.opcode = .pushInt ∧
      change.opcode = .intBinary direction.operation ∧ store.opcode = .storeLocal ∧
      load.operand = store.operand ∧ p.intConstants[one.index]? = some 1))

instance (direction : Direction) (address : Nat) :
    Decidable (Fusible p instructions direction address) :=
  inferInstanceAs (Decidable (StepsSlot p instructions direction address ∧
    ∀ inside ∈ [address + 1, address + 2, address + 3], ¬ Targeted instructions inside))

instance : DecidablePred (FusibleAt p instructions) := fun address =>
  decidable_of_iff (Fusible p instructions .up address ∨ Fusible p instructions .down address)
    ⟨fun either => either.elim (⟨.up, ·⟩) (⟨.down, ·⟩), by rintro ⟨_ | _, fusible⟩ <;> simp [fusible]⟩

instance : DecidablePred (Covered p instructions) := fun address =>
  inferInstanceAs (Decidable (∃ start < address, address < start + 4 ∧
    FusibleAt p instructions start))

end Decisions

/-- Where an address goes when every fusible span becomes one instruction. -/
def moved (p : Program) (instructions : List Instruction) (address : Nat) : Nat :=
  Nat.count (fun earlier => ¬ Covered p instructions earlier) address

/-- What a segment that starts at an address stands for. -/
inductive Marks (p : Program) (instructions : List Instruction) (address : Nat) : Segment → Prop where
  | kept {i : Instruction} (here : instructions[address]? = some i)
    (single : ¬ FusibleAt p instructions address) : Marks p instructions address (.kept i)
  | fused {direction : Direction} {load : Instruction}
    (fusible : Fusible p instructions direction address)
    (first : instructions[address]? = some load) :
    Marks p instructions address (.fused direction load.operand)

/-- The segments are the fusible spans of a stream and the single instructions between them. -/
structure Divides (p : Program) (instructions : List Instruction) (segments : List Segment) :
    Prop where
  whole : instructions.length = Segment.startOf segments segments.length
  marks : ∀ {k : Nat} {segment : Segment}, segments[k]? = some segment →
    Marks p instructions (Segment.startOf segments k) segment

section Spans

variable {p : Program} {instructions : List Instruction}

theorem getElem?_of_drop {address : Nat} {rest : List Instruction}
    (here : instructions.drop address = rest) (k : Nat) :
    instructions[address + k]? = rest[k]? := by
  rw [← here, List.getElem?_drop]

/-- The walk along a stream recognizes four instructions that step a slot. -/
theorem stepsSlot_iff {address : Nat} {load one change store : Instruction}
    {rest : List Instruction}
    (here : instructions.drop address = load :: one :: change :: store :: rest)
    (direction : Direction) :
    StepsSlot p instructions direction address ↔
      Segment.direction? p.intConstants load one change store = some direction := by
  have first : instructions[address]? = some load := getElem?_of_drop here 0
  have second : instructions[address + 1]? = some one := getElem?_of_drop here 1
  have third : instructions[address + 2]? = some change := getElem?_of_drop here 2
  have last : instructions[address + 3]? = some store := getElem?_of_drop here 3
  simp only [StepsSlot, first, second, third, last, Option.mem_def, Option.some.injEq,
    exists_eq_left']
  constructor
  · rintro ⟨loads, pushes, changes, stores, slot, constant⟩
    cases direction <;>
      simp only [Segment.direction?, loads, pushes, changes, stores, slot, constant,
        Direction.operation, and_self, if_true]
  · intro steps
    obtain ⟨loads, pushes, stores, slot, constant, changes⟩ := Segment.of_direction? steps
    refine ⟨loads, pushes, ?_, stores, slot, constant⟩
    rcases changes with ⟨adds, rfl⟩ | ⟨subtracts, rfl⟩
    · exact adds
    · exact subtracts

/-- Where four instructions step a slot there are four instructions. -/
theorem StepsSlot.length_le {direction : Direction} {address : Nat}
    (steps : StepsSlot p instructions direction address) :
    address + 4 ≤ instructions.length := by
  obtain ⟨load, -, one, -, change, -, store, last, -⟩ := steps
  obtain ⟨inside, -⟩ := List.getElem?_eq_some_iff.mp last
  exact inside

/-- A fusible span ends inside of the instructions. -/
theorem FusibleAt.length_le {address : Nat} (fusible : FusibleAt p instructions address) :
    address + 4 ≤ instructions.length := by
  obtain ⟨direction, steps, -⟩ := fusible
  exact steps.length_le

/-- Four instructions that step a slot have no other such four behind their first one. -/
theorem fusible_apart {first second : Nat} (fusible : FusibleAt p instructions first)
    (later : FusibleAt p instructions second) (before : first < second) : first + 4 ≤ second := by
  obtain ⟨direction, ⟨load, -, one, oneHere, change, changeHere, store, storeHere, -, pushes,
    changes, stores, -, -⟩, -⟩ := fusible
  obtain ⟨other, ⟨laterLoad, here, -, -, -, -, -, -, loads, -⟩, -⟩ := later
  refine Nat.le_of_not_lt fun overlap => ?_
  have place : second = first + 1 ∨ second = first + 2 ∨ second = first + 3 := by omega
  rcases place with rfl | rfl | rfl
  · rw [Option.mem_unique here oneHere, pushes] at loads
    cases loads
  · rw [Option.mem_unique here changeHere, changes] at loads
    cases loads
  · rw [Option.mem_unique here storeHere, stores] at loads
    cases loads

/-- A jump does not stand in a place where four instructions step a slot. -/
theorem StepsSlot.straight {direction : Direction} {address k : Nat}
    (steps : StepsSlot p instructions direction address) (inside : k < 4) {i : Instruction}
    (here : instructions[address + k]? = some i) : i.opcode.isJump = false := by
  obtain ⟨load, loadHere, one, oneHere, change, changeHere, store, storeHere, loads, pushes,
    changes, stores, -, -⟩ := steps
  have place : k = 0 ∨ k = 1 ∨ k = 2 ∨ k = 3 := by omega
  rcases place with rfl | rfl | rfl | rfl
  · rw [Option.mem_unique here loadHere, loads]
    rfl
  · rw [Option.mem_unique here oneHere, pushes]
    rfl
  · rw [Option.mem_unique here changeHere, changes]
    rfl
  · rw [Option.mem_unique here storeHere, stores]
    rfl

end Spans

section Walking

variable {p : Program} {instructions : List Instruction} {found : List Nat}

/-- Whatever is listed as a target is the target of a jump. -/
theorem jump_of_mem_targets {length address target : Nat}
    (accepted : targets length address instructions = .ok found) (member : target ∈ found) :
    ∃ (k : Nat) (i : Instruction), instructions[k]? = some i ∧ i.opcode.isJump = true ∧
      i.target (address + k) = (target : Int) := by
  induction instructions generalizing address found with
  | nil =>
    cases accepted
    cases member
  | cons first rest ih =>
    have shift (k : Nat) : address + 1 + k = address + (k + 1) := by omega
    unfold targets at accepted
    dsimp only at accepted
    by_cases jump : first.opcode.isJump = true
    · rw [if_pos jump] at accepted
      split at accepted
      next bounds =>
        cases others : targets length (address + 1) rest with
        | error e => rw [others] at accepted; cases accepted
        | ok later =>
          rw [others] at accepted
          cases accepted
          rcases List.mem_cons.mp member with rfl | member
          · exact ⟨0, first, rfl, jump, (Int.toNat_of_nonneg bounds.1).symm⟩
          · obtain ⟨k, i, here, jumps, leads⟩ := ih others member
            exact ⟨k + 1, i, here, jumps, shift k ▸ leads⟩
      next => cases accepted
    · rw [if_neg jump] at accepted
      obtain ⟨k, i, here, jumps, leads⟩ := ih accepted member
      exact ⟨k + 1, i, here, jumps, shift k ▸ leads⟩

/-- The list of targets holds the addresses that jumps lead to. -/
theorem mem_targets_iff (accepted : targets instructions.length 0 instructions = .ok found)
    {target : Nat} : target ∈ found ↔ Targeted instructions target := by
  constructor
  · intro member
    obtain ⟨k, i, here, jumps, leads⟩ := jump_of_mem_targets accepted member
    exact ⟨k, i, here, jumps, Nat.zero_add k ▸ leads⟩
  · rintro ⟨address, i, here, jumps, leads⟩
    obtain ⟨other, member, same, -⟩ := target_mem_of_targets accepted here jumps
    rw [Nat.zero_add, leads] at same
    rwa [Int.natCast_inj.mp same]

/-- A span is entered if one of its last three instructions is a target. -/
theorem entersSpan_iff (targets : List Nat) (address : Nat) :
    Segment.entersSpan targets address = true ↔
      ∃ inside ∈ [address + 1, address + 2, address + 3], inside ∈ targets := by
  have four : Segment.spanLength = 4 := rfl
  simp only [Segment.entersSpan, List.any_eq_true, decide_eq_true_eq, List.mem_cons,
    List.not_mem_nil, or_false, exists_eq_or_imp, exists_eq_left]
  constructor
  · rintro ⟨target, member, low, high⟩
    have place : target = address + 1 ∨ target = address + 2 ∨ target = address + 3 := by omega
    rcases place with rfl | rfl | rfl
    · exact .inl member
    · exact .inr (.inl member)
    · exact .inr (.inr member)
  · rintro (member | member | member)
    · exact ⟨_, member, by omega, by omega⟩
    · exact ⟨_, member, by omega, by omega⟩
    · exact ⟨_, member, by omega, by omega⟩

/-- The four instructions of a span are fused unless a jump leads into them. -/
theorem fusible_iff (listed : ∀ {target : Nat}, target ∈ found ↔ Targeted instructions target)
    {address : Nat} {load one change store : Instruction} {rest : List Instruction}
    (here : instructions.drop address = load :: one :: change :: store :: rest)
    (direction : Direction) :
    Fusible p instructions direction address ↔
      Segment.direction? p.intConstants load one change store = some direction ∧
        Segment.entersSpan found address = false := by
  rw [Fusible, stepsSlot_iff here, ← Bool.not_eq_true, entersSpan_iff]
  simp only [listed, not_exists, not_and]

/-- The walk from an address on comes across each segment where it starts. -/
theorem segments_mark (listed : ∀ {target : Nat}, target ∈ found ↔ Targeted instructions target)
    {address : Nat} {rest : List Instruction} (here : instructions.drop address = rest)
    {k : Nat} {segment : Segment}
    (cut : (Segment.segments p.intConstants found address rest)[k]? = some segment) :
    Marks p instructions
      (address + Segment.startOf (Segment.segments p.intConstants found address rest) k)
      segment := by
  have tail {head : Instruction} {others : List Instruction} {start : Nat}
      (here : instructions.drop start = head :: others) :
      instructions.drop (start + 1) = others := by
    rw [← List.drop_drop, here, List.drop_succ_cons, List.drop_zero]
  induction address, rest using Segment.segments.induct p.intConstants found generalizing k with
  | case1 address load one change store rest direction steps enters ih =>
    have single : ¬ FusibleAt p instructions address := by
      rintro ⟨other, fusible⟩
      have clear := ((fusible_iff listed here other).mp fusible).2
      rw [enters] at clear
      cases clear
    simp only [Segment.segments, steps, enters, if_true] at cut ⊢
    cases k with
    | zero =>
      cases cut
      exact .kept (getElem?_of_drop here 0) single
    | succ k => exact Nat.add_assoc .. ▸ ih (tail here) cut
  | case2 address load one change store rest direction steps enters ih =>
    have fusible : Fusible p instructions direction address :=
      (fusible_iff listed here direction).mpr ⟨steps, Bool.not_eq_true _ ▸ enters⟩
    simp only [Segment.segments, steps, enters] at cut ⊢
    cases k with
    | zero =>
      cases cut
      exact .fused fusible (getElem?_of_drop here 0)
    | succ k => exact Nat.add_assoc .. ▸ ih (tail (tail (tail (tail here)))) cut
  | case3 address load one change store rest steps ih =>
    have single : ¬ FusibleAt p instructions address := by
      rintro ⟨other, fusible⟩
      have found := ((fusible_iff listed here other).mp fusible).1
      rw [steps] at found
      cases found
    simp only [Segment.segments, steps] at cut ⊢
    cases k with
    | zero =>
      cases cut
      exact .kept (getElem?_of_drop here 0) single
    | succ k => exact Nat.add_assoc .. ▸ ih (tail here) cut
  | case4 address first rest short ih =>
    have single : ¬ FusibleAt p instructions address := by
      intro fusible
      have long := fusible.length_le
      have length := congrArg List.length here
      rw [List.length_drop] at length
      have more : 3 ≤ rest.length := by
        rw [List.length_cons] at length
        omega
      rcases rest with _ | ⟨one, _ | ⟨change, _ | ⟨store, rest⟩⟩⟩
      · exact absurd more (by simp)
      · exact absurd more (by simp)
      · exact absurd more (by simp)
      · exact short one change store rest rfl
    rw [Segment.segments] at cut ⊢
    · cases k with
      | zero =>
        cases cut
        exact .kept (getElem?_of_drop here 0) single
      | succ k => exact Nat.add_assoc .. ▸ ih (tail here) cut
    · exact short
    · exact short
  | case5 address => cases cut

end Walking

section Places

open Segment

variable {segments : List Segment}

/-- A later segment starts no earlier. -/
theorem startOf_mono {k j : Nat} (before : k ≤ j) (inside : j ≤ segments.length) :
    startOf segments k ≤ startOf segments j := by
  induction j with
  | zero => rw [Nat.le_zero.mp before]
  | succ j ih =>
    rcases Nat.eq_or_lt_of_le before with rfl | earlier
    · exact Nat.le_refl _
    · have here := List.getElem?_eq_getElem inside
      rw [startOf_succ here]
      exact Nat.le_trans (ih (Nat.le_of_lt_succ earlier) (Nat.le_of_succ_le inside))
        (Nat.le_add_right _ _)

/-- Nothing but the first of some numbers may have a property. -/
theorem filter_range_of_first {length : Nat} (positive : 0 < length) (holds : Nat → Bool)
    (only : ∀ offset, 0 < offset → offset < length → ¬ holds offset = true) :
    (List.range length).filter holds = if holds 0 then [0] else [] := by
  obtain ⟨more, rfl⟩ := Nat.exists_eq_add_one_of_ne_zero (Nat.ne_of_gt positive)
  have others : ((List.range more).map Nat.succ).filter holds = [] := by
    refine List.filter_eq_nil_iff.mpr fun offset member => ?_
    obtain ⟨before, inside, rfl⟩ := List.mem_map.mp member
    exact only _ (Nat.succ_pos before) (Nat.succ_lt_succ (List.mem_range.mp inside))
  rw [List.range_succ_eq_map, List.filter_cons, others]

/-- Every address of a stream belongs to a segment. -/
theorem exists_segment {address : Nat} (inside : address < startOf segments segments.length) :
    ∃ (k : Nat) (segment : Segment), segments[k]? = some segment ∧
      startOf segments k ≤ address ∧ address < startOf segments k + segment.length := by
  induction segments generalizing address with
  | nil => exact absurd inside (Nat.not_lt_zero address)
  | cons first rest ih =>
    by_cases early : address < first.length
    · exact ⟨0, first, rfl, Nat.zero_le _, by simpa using early⟩
    · rw [List.length_cons, startOf_cons_succ] at inside
      have later : address - first.length < startOf rest rest.length := by omega
      obtain ⟨k, segment, here, low, high⟩ := ih later
      refine ⟨k + 1, segment, here, ?_, ?_⟩
      · rw [startOf_cons_succ]
        omega
      · rw [startOf_cons_succ]
        omega

variable {p : Program} {instructions : List Instruction}
  (divides : Divides p instructions segments)

include divides

/-- A fusible span is a segment, wherever it starts. -/
theorem Divides.fused_of_fusibleAt {address : Nat}
    (fusible : FusibleAt p instructions address) :
    ∃ (k : Nat) (direction : Direction) (slot : BitVec 24),
      segments[k]? = some (.fused direction slot) ∧ startOf segments k = address := by
  have inside : address < startOf segments segments.length := by
    have long := fusible.length_le
    rw [← divides.whole]
    omega
  obtain ⟨k, segment, here, low, high⟩ := exists_segment inside
  have marks := divides.marks here
  cases marks with
  | kept there single =>
    obtain rfl : startOf segments k = address := by
      rw [Segment.length] at high
      omega
    exact absurd fusible single
  | @fused direction load there first =>
    refine ⟨k, direction, load.operand, here, ?_⟩
    rw [Segment.length, spanLength] at high
    rcases Nat.eq_or_lt_of_le low with same | before
    · exact same
    · have apart := fusible_apart ⟨direction, there⟩ fusible before
      omega

/-- An address at which a segment starts is not inside a span. -/
theorem Divides.not_covered {k : Nat} (inside : k ≤ segments.length) :
    ¬ Covered p instructions (startOf segments k) := by
  rintro ⟨start, low, high, fusible⟩
  obtain ⟨j, direction, slot, here, rfl⟩ := divides.fused_of_fusibleAt fusible
  obtain ⟨within, -⟩ := List.getElem?_eq_some_iff.mp here
  rcases Nat.lt_or_ge j k with before | after
  · have far : startOf segments (j + 1) ≤ startOf segments k := startOf_mono before inside
    rw [startOf_succ here, Segment.length, spanLength] at far
    omega
  · have near := startOf_mono after (Nat.le_of_lt within)
    omega

/-- The addresses of a segment behind its first one are inside a span. -/
theorem Divides.covered {k : Nat} {segment : Segment} (here : segments[k]? = some segment)
    {address : Nat} (low : startOf segments k < address)
    (high : address < startOf segments k + segment.length) : Covered p instructions address := by
  have marks := divides.marks here
  cases marks with
  | kept =>
    rw [Segment.length] at high
    omega
  | @fused direction load fusible =>
    exact ⟨startOf segments k, low, high, direction, fusible⟩

/-- An address that is not inside a span is the start of a segment or the end of the stream. -/
theorem Divides.exists_startOf {address : Nat} (inside : address ≤ instructions.length)
    (single : ¬ Covered p instructions address) :
    ∃ k ≤ segments.length, startOf segments k = address := by
  rw [divides.whole] at inside
  rcases Nat.eq_or_lt_of_le inside with rfl | before
  · exact ⟨segments.length, Nat.le_refl _, rfl⟩
  · obtain ⟨k, segment, here, low, high⟩ := exists_segment before
    obtain ⟨within, -⟩ := List.getElem?_eq_some_iff.mp here
    rcases Nat.eq_or_lt_of_le low with same | behind
    · exact ⟨k, Nat.le_of_lt within, same⟩
    · exact absurd (divides.covered here behind high) single

/-- The addresses that are not inside a span are those at which a segment starts. -/
theorem Divides.filter_range {k : Nat} (inside : k ≤ segments.length) :
    (List.range (startOf segments k)).filter (fun address => ¬ Covered p instructions address) =
      (List.range k).map (startOf segments) := by
  induction k with
  | zero => simp
  | succ k ih =>
    have here := List.getElem?_eq_getElem inside
    have first := divides.not_covered (Nat.le_of_succ_le inside)
    have own := filter_range_of_first (length_pos segments[k])
      (fun offset => decide (¬ Covered p instructions (startOf segments k + offset)))
      fun offset low high => by simpa using divides.covered here (by omega) (by omega)
    rw [startOf_succ here, List.range_add, List.filter_append, ih (Nat.le_of_succ_le inside),
      List.filter_map, Function.comp_def, own, List.range_succ, List.map_append]
    simp [first]

/-- The start of a segment goes to the index of the segment. -/
theorem Divides.moved_startOf {k : Nat} (inside : k ≤ segments.length) :
    moved p instructions (startOf segments k) = k := by
  rw [moved, Nat.count, List.countP_eq_length_filter, divides.filter_range inside,
    List.length_map, List.length_range]

/-- As many spans start before a segment as segments before it are fused. -/
theorem Divides.count_fusible {k : Nat} (inside : k ≤ segments.length) :
    Nat.count (FusibleAt p instructions) (startOf segments k) =
      (segments.take k).countP isFused := by
  induction k with
  | zero => simp
  | succ k ih =>
    have here := List.getElem?_eq_getElem inside
    have marks := divides.marks here
    have own := congrArg List.length <| filter_range_of_first (length_pos segments[k])
      (fun offset => decide (FusibleAt p instructions (startOf segments k + offset)))
      fun offset low high => by
        have behind : startOf segments k < startOf segments k + offset := by omega
        obtain ⟨start, before, near, fusible⟩ := divides.covered here behind (by omega)
        simp only [decide_eq_true_eq]
        intro other
        have apart := fusible_apart fusible other before
        omega
    rw [← List.countP_eq_length_filter] at own
    rw [startOf_succ here, Nat.count_add, ih (Nat.le_of_succ_le inside),
      List.take_succ_eq_append_getElem inside, List.countP_append, Nat.count, own]
    generalize segments[k] = segment at marks
    cases marks with
    | kept _ single => simp [single, isFused]
    | fused fusible => simp [show FusibleAt p instructions _ from ⟨_, fusible⟩, isFused]

end Places

end Fusion

end HotPath
