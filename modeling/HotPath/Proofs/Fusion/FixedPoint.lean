import HotPath.Proofs.Fusion.Exactness

/-!
# Fusing a fused function

Fusing brings instructions next to each other that were apart, takes addresses away and
leads jumps elsewhere. No fusible span comes about by that. Four instructions that step a slot in
the new stream have been kept, so they stood next to each other before (`Fuses.stepsSlot`);
they were kept because a jump leads into their midst, and that jump still does
(`Fuses.targeted`). A second pass therefore finds nothing to fuse (`Fuses.unfusible`) and no jump
to refuse (`Fuses.targets_ok`).
-/

namespace HotPath

namespace Fusion

section Unfusible

variable {p : Program} {instructions : List Instruction}

/-- A stream is accepted if all its jumps stay inside. -/
theorem exists_targets {length address : Nat}
    (inside : ∀ {k : Nat} {i : Instruction}, instructions[k]? = some i → i.opcode.isJump = true →
      ∃ target ≤ length, i.target (address + k) = (target : Int)) :
    ∃ found, targets length address instructions = .ok found := by
  induction instructions generalizing address with
  | nil => exact ⟨[], rfl⟩
  | cons first rest ih =>
    have later : ∃ found, targets length (address + 1) rest = .ok found := by
      refine ih fun {k i} here jumps => ?_
      have inside := inside (k := k + 1) here jumps
      rwa [Nat.add_comm k 1, ← Nat.add_assoc] at inside
    obtain ⟨others, accepted⟩ := later
    unfold targets
    by_cases jump : first.opcode.isJump = true
    · obtain ⟨target, bound, leads⟩ := inside (k := 0) rfl jump
      rw [Nat.add_zero] at leads
      have bounds : 0 ≤ first.target address ∧ first.target address ≤ length := by omega
      dsimp only
      rw [if_pos jump, if_pos bounds, accepted]
      exact ⟨_, rfl⟩
    · rw [if_neg jump]
      exact ⟨others, accepted⟩

/-- Without a fusible span there is no fused segment. -/
theorem Divides.unfused {segments : List Segment} (divides : Divides p instructions segments)
    (unfusible : ∀ address, ¬ FusibleAt p instructions address) :
    segments.countP Segment.isFused = 0 := by
  refine List.countP_eq_zero.mpr fun segment member => ?_
  obtain ⟨k, here⟩ := List.mem_iff_getElem?.mp member
  have marks := divides.marks here
  cases marks with
  | kept => exact Bool.false_ne_true
  | @fused direction load fusible => exact absurd ⟨direction, fusible⟩ (unfusible _)

/-- A function without a fusible span comes back as it was. -/
theorem fuse_of_unfusible {f : Function} {found : List Nat}
    (decoded : f.code.decode = .ok instructions)
    (accepted : targets instructions.length 0 instructions = .ok found)
    (unfusible : ∀ address, ¬ FusibleAt p instructions address) : f.fuse p = .ok ⟨f, 0⟩ := by
  have unfused := (divides_segments accepted).unfused unfusible
  simp only [Function.fuse, decoded, bind, Except.bind, accepted, unfused]
  rfl

end Unfusible

section Again

open Segment

variable {p : Program} {before after : List Instruction} {segments : List Segment}
  (fuses : Fuses p before after segments)

include fuses

/-- What each address of the new stream stands for. -/
theorem Fuses.segment_of_getElem? {k : Nat} {j : Instruction} (here : after[k]? = some j) :
    ∃ segment, segments[k]? = some segment ∧ Emitted segments k segment j := by
  obtain ⟨inside, -⟩ := List.getElem?_eq_some_iff.mp here
  rw [fuses.length] at inside
  have there := List.getElem?_eq_getElem inside
  obtain ⟨other, same, emitted⟩ := fuses.emitted there
  rw [here] at same
  cases same
  exact ⟨_, there, emitted⟩

/-- An instruction that is neither a jump nor the step of a slot stood there before. -/
theorem Fuses.kept_of_straight {k : Nat} {j : Instruction} (here : after[k]? = some j)
    (straight : j.opcode.isJump = false) (plain : ∀ direction, j.opcode ≠ .stepLocal direction) :
    before[startOf segments k]? = some j ∧ ¬ FusibleAt p before (startOf segments k) ∧
      startOf segments (k + 1) = startOf segments k + 1 := by
  obtain ⟨segment, there, emitted⟩ := fuses.segment_of_getElem? here
  have marks := fuses.divides.marks there
  have next := startOf_succ there
  cases emitted with
  | fused direction slot => exact absurd rfl (plain direction)
  | @kept i j follows =>
    cases marks with
    | kept stood single =>
      rw [follows.opcode_eq] at straight
      obtain rfl := follows.eq_of_straight straight
      exact ⟨stood, single, next⟩

/-- Four instructions that step a slot stood next to each other before, and were kept. -/
theorem Fuses.stepsSlot {direction : Direction} {address : Nat}
    (steps : StepsSlot p after direction address) :
    StepsSlot p before direction (startOf segments address) ∧
      ¬ FusibleAt p before (startOf segments address) ∧
      ∀ k < 4, startOf segments (address + k) = startOf segments address + k := by
  obtain ⟨load, loadHere, one, oneHere, change, changeHere, store, storeHere, loads, pushes,
    changes, stores, slot, constant⟩ := steps
  obtain ⟨loadThere, single, second⟩ :=
    fuses.kept_of_straight loadHere (by rw [loads]; rfl) (by simp [loads])
  obtain ⟨oneThere, -, third⟩ :=
    fuses.kept_of_straight oneHere (by rw [pushes]; rfl) (by simp [pushes])
  obtain ⟨changeThere, -, fourth⟩ :=
    fuses.kept_of_straight changeHere (by rw [changes]; rfl) (by simp [changes])
  obtain ⟨storeThere, -, -⟩ :=
    fuses.kept_of_straight storeHere (by rw [stores]; rfl) (by simp [stores])
  rw [third, second] at fourth
  rw [second] at oneThere third
  rw [third] at changeThere
  rw [fourth] at storeThere
  refine ⟨⟨load, loadThere, one, oneThere, change, changeThere, store, storeThere, loads, pushes,
    changes, stores, slot, constant⟩, single, fun k inside => ?_⟩
  have place : k = 0 ∨ k = 1 ∨ k = 2 ∨ k = 3 := by omega
  rcases place with rfl | rfl | rfl | rfl
  · rfl
  · exact second
  · exact third
  · exact fourth

/-- A jump of the old stream was kept. -/
theorem Fuses.kept_of_jump {address : Nat} {i : Instruction} (here : before[address]? = some i)
    (jumps : i.opcode.isJump = true) :
    ∃ k, segments[k]? = some (.kept i) ∧ startOf segments k = address := by
  have inside : address < startOf segments segments.length := by
    rw [← fuses.divides.whole]
    exact (List.getElem?_eq_some_iff.mp here).1
  obtain ⟨k, segment, there, low, high⟩ := exists_segment inside
  obtain ⟨offset, rfl⟩ := Nat.exists_eq_add_of_le low
  have marks := fuses.divides.marks there
  cases marks with
  | kept stood =>
    obtain rfl : offset = 0 := by
      rw [Segment.length] at high
      omega
    obtain rfl := Option.mem_unique stood here
    exact ⟨k, there, rfl⟩
  | fused fusible =>
    rw [Segment.length, spanLength] at high
    have straight := fusible.1.straight (k := offset) (by omega) here
    rw [jumps] at straight
    cases straight

/-- A jump that led to the start of a segment leads to what the segment has become. -/
theorem Fuses.targeted {k : Nat} (inside : k ≤ segments.length)
    (targeted : Targeted before (startOf segments k)) : Targeted after k := by
  obtain ⟨address, i, here, jumps, leads⟩ := targeted
  obtain ⟨source, there, rfl⟩ := fuses.kept_of_jump here jumps
  obtain ⟨j, stands, emitted⟩ := fuses.emitted there
  cases emitted with
  | kept follows =>
    obtain ⟨same, target, bound, led, goes⟩ := follows.leads jumps
    have starts : startOf segments target = startOf segments k :=
      Int.natCast_inj.mp (led.symm.trans leads)
    obtain rfl : target = k := by
      rw [← relocate_startOf bound, starts, relocate_startOf inside]
    exact ⟨source, j, stands, by rw [same, jumps], goes⟩

/-- The new stream has no fusible span. -/
theorem Fuses.unfusible (address : Nat) : ¬ FusibleAt p after address := by
  rintro ⟨direction, steps, clear⟩
  obtain ⟨stood, single, places⟩ := fuses.stepsSlot steps
  have room : address + 4 ≤ segments.length := fuses.length ▸ steps.length_le
  -- The four instructions were kept because of a jump, which leads to the same one of them now.
  refine single ⟨direction, stood, fun inside member entered => ?_⟩
  have place : ∃ k < 4, inside = startOf segments address + k ∧
      address + k ∈ [address + 1, address + 2, address + 3] := by
    simp only [List.mem_cons, List.not_mem_nil, or_false] at member
    rcases member with rfl | rfl | rfl
    · exact ⟨1, by omega, rfl, by simp⟩
    · exact ⟨2, by omega, rfl, by simp⟩
    · exact ⟨3, by omega, rfl, by simp⟩
  obtain ⟨k, few, rfl, listed⟩ := place
  rw [← places k few] at entered
  exact clear _ listed (fuses.targeted (by omega) entered)

/-- The jumps of the new stream stay inside it. -/
theorem Fuses.targets_ok : ∃ found, targets after.length 0 after = .ok found := by
  refine exists_targets fun {k j} here jumps => ?_
  obtain ⟨segment, -, emitted⟩ := fuses.segment_of_getElem? here
  rw [Nat.zero_add]
  cases emitted with
  | fused direction slot => cases jumps
  | kept follows =>
    rw [follows.opcode_eq] at jumps
    obtain ⟨-, target, bound, -, goes⟩ := follows.leads jumps
    exact ⟨target, fuses.length ▸ bound, goes⟩

end Again

/-- Fusing reaches a fixed point in one pass. -/
theorem fuse_again {p : Program} {f : Function} {fusion : Fusion} (fused : f.fuse p = .ok fusion) :
    fusion.function.fuse p = .ok ⟨fusion.function, 0⟩ := by
  obtain ⟨before, after, segments, -, decodes, fuses, -, -⟩ := fuses_of_fuse fused
  obtain ⟨found, accepted⟩ := fuses.targets_ok
  exact fuse_of_unfusible decodes accepted fuses.unfusible

/-- The loop that counts a slot up, whose span a second pass finds fused. -/
theorem fuse_again_countUpProgram :
    ∃ fusion, countUp.fuse countUpProgram = .ok fusion ∧ fusion.count = 1 ∧
      fusion.function.fuse countUpProgram = .ok ⟨fusion.function, 0⟩ := by
  obtain ⟨fusion, fused, count⟩ :
      ∃ fusion, countUp.fuse countUpProgram = .ok fusion ∧ fusion.count = 1 := ⟨_, rfl, rfl⟩
  exact ⟨fusion, fused, count, fuse_again fused⟩

end Fusion

end HotPath
