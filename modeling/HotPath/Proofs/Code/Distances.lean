import HotPath.Proofs.Code.Writing

/-!
# How far a jump reaches

The distance of a jump has to get through 24 bits, whose high half is read as negative. What comes
out differs from what went in by a multiple of `2 ^ 24`, and `InReach` says for which distances it
is the same. `Aims` says this of targets, `jumps_resolve` of jumps that are patched or emitted.

The lowest distance in reach is further from zero than the highest: -8388608 and 8388607.
-/

namespace HotPath

namespace Instruction

/-- A distance that an operand holds. -/
def InReach (distance : Int) : Prop := minOffset ≤ distance ∧ distance ≤ maxOffset

instance (distance : Int) : Decidable (InReach distance) :=
  inferInstanceAs (Decidable (_ ∧ _))

/-- Whatever the operand, it is read as a distance in reach. -/
theorem inReach_offset (i : Instruction) : InReach i.offset := by
  have low : -0x800000 ≤ i.operand.toInt := BitVec.le_toInt i.operand
  have high : i.operand.toInt < 0x800000 := BitVec.toInt_lt
  rw [offset_eq_toInt]
  unfold InReach minOffset maxOffset
  omega

/-- An operand keeps a distance up to a multiple of `2 ^ 24`. -/
theorem offset_make_emod (opcode : Opcode) (distance : Int) :
    (make opcode distance).offset % 0x1000000 = distance % 0x1000000 := by
  rw [offset_eq_toInt, make, BitVec.toInt_ofInt]
  exact Int.bmod_emod

/-- The distances in reach are those that an operand keeps. -/
theorem offset_make_eq_iff (opcode : Opcode) (distance : Int) :
    (make opcode distance).offset = distance ↔ InReach distance := by
  constructor
  · intro kept
    rw [← kept]
    exact inReach_offset _
  · rintro ⟨low, high⟩
    exact offset_make low high

-- One more than the highest distance is read as the lowest one.
example : (make .nop 0x7fffff).offset = 0x7fffff ∧ (make .nop 0x800000).offset = -0x800000 := by
  decide

/-- A jump at `address` that was made to lead to `target` leads to `reached`, as far as 24 bits
go. -/
structure Aims (address : Nat) (target reached : Int) : Prop where
  congruent : reached % 0x1000000 = target % 0x1000000
  near : InReach (reached - address)
  exact_iff : reached = target ↔ InReach (target - address)

/-- A jump whose operand is the distance to a target aims at the target. -/
theorem aims_make (opcode : Opcode) (address : Nat) (target : Int) :
    Aims address target ((make opcode (target - address)).target address) where
  congruent := by
    have kept := offset_make_emod opcode (target - address)
    unfold Instruction.target
    omega
  near := by
    have distance (i : Instruction) : i.target address - address = i.offset := by
      rw [Instruction.target]
      omega
    rw [distance]
    exact inReach_offset _
  exact_iff := by
    rw [← offset_make_eq_iff opcode, Instruction.target]
    omega

section Words

/-- Masking a word leaves its low 24 bits. -/
theorem toNat_mask (word : UInt32) : (word &&& 0xffffff).toNat = word.toNat % 0x1000000 := by
  rw [UInt32.toNat_and]
  exact Nat.and_two_pow_sub_one_eq_mod word.toNat 24

/-- Reading 24 bits as signed is moving them up to the sign bit and back down with it. -/
theorem signExtend24_eq_shift (word : UInt32) :
    signExtend24 word = (((word &&& 0xffffff) <<< 8).toInt32 >>> 8).toInt := by
  have small : word.toNat % 0x1000000 < 0x1000000 := Nat.mod_lt _ (by decide)
  have up : ((word &&& 0xffffff) <<< 8).toNat = word.toNat % 0x1000000 * 0x100 := by
    rw [UInt32.toNat_shiftLeft, toNat_mask]
    change (word.toNat % 0x1000000) <<< 8 % 2 ^ 32 = _
    rw [Nat.shiftLeft_eq]
    omega
  have down : (((word &&& 0xffffff) <<< 8).toInt32 >>> 8).toInt =
      ((word &&& 0xffffff) <<< 8).toBitVec.toInt / 0x100 := by
    have eight : (Int32.toBitVec 8).smod 32 = 8#32 := by decide
    rw [← Int32.toInt_toBitVec, Int32.toBitVec_shiftRight, eight, BitVec.toInt_sshiftRight',
      Int.shiftRight_eq_div_pow]
    rfl
  rw [down, signExtend24, BitVec.toInt_eq_toNat_cond, BitVec.toInt_eq_toNat_cond,
    UInt32.toNat_toBitVec, up, BitVec.toNat_ofNat]
  split <;> split <;> omega

/-- An operand keeps the low 24 bits of the low half of a number. -/
theorem index_make_eq_mask (opcode : Opcode) (n : Int64) :
    (make opcode n.toInt).index = (n.toUInt64.toUInt32 &&& 0xffffff).toNat := by
  have word : n.toInt = n.toUInt64.toNat ∨ n.toInt = n.toUInt64.toNat - 2 ^ 64 := by
    rw [← Int64.toInt_toBitVec, BitVec.toInt_eq_toNat_cond]
    split
    · exact .inl rfl
    · exact .inr rfl
  rw [index, make, BitVec.toNat_ofInt, toNat_mask, UInt64.toNat_toUInt32]
  omega

/-- A word is read as the distance that an instruction with its low 24 bits has. -/
theorem signExtend24_eq_offset {i : Instruction} {word : UInt32}
    (same : i.index = (word &&& 0xffffff).toNat) : signExtend24 word = i.offset := by
  have bits : BitVec.ofNat 24 word.toNat = i.operand := by
    apply BitVec.eq_of_toNat_eq
    rw [BitVec.toNat_ofNat, ← toNat_mask, ← same]
    rfl
  rw [signExtend24, bits, offset_eq_toInt]

end Words

end Instruction

namespace Code

variable {code : Code} {address : Nat} {i : Instruction}

/-- A record with the bytes of its operand replaced in place. -/
theorem recordAt?_setIfInBounds {r : Record} (found : code.recordAt? address = some r)
    (high middle low : UInt8) :
    (Code.mk (((code.bytes.setIfInBounds (4 * address + 1) high).setIfInBounds (4 * address + 2)
      middle).setIfInBounds (4 * address + 3) low)).recordAt? address =
      some { r with high, middle, low } := by
  unfold recordAt? at found ⊢
  split at found
  next inside =>
    have first : 4 * address < code.bytes.size := by omega
    have second : 4 * address + 1 < code.bytes.size := by omega
    have third : 4 * address + 2 < code.bytes.size := by omega
    cases found
    rw [dif_pos (by simpa using inside)]
    simp [first, second, third]
  next => cases found

/-- A patched instruction has its old operation and the new operand. -/
theorem has_of_patch (here : code.Has address i) (operand : Int) :
    ∃ after, code.patch address operand = .ok after ∧
      after.Has address (.make i.opcode operand) := by
  obtain ⟨record, found, decodes⟩ := here
  refine ⟨_, if_pos (lt_of_recordAt? found), (Instruction.make i.opcode operand).encode, ?_,
    Instruction.decode_encode ..⟩
  rw [recordAt?_setIfInBounds found, ← Instruction.encode_of_decode decodes]
  rfl

/-- An instruction is appended at the address that is next. -/
theorem has_of_push (whole : code.bytes.size % 4 = 0) (i : Instruction) :
    (code.push i).Has code.instructionCount i := by
  have size : 4 * code.instructionCount = code.bytes.toList.length := by
    rw [instructionCount, Array.length_toList]
    omega
  have bytes : (code.push i).bytes.toList = code.bytes.toList ++ i.encode.bytes := by
    simp [push]
  have last : (code.push i).bytes.toList.drop (4 * code.instructionCount) =
      i.encode.bytes ++ [] := by
    rw [bytes, size, List.drop_left, List.append_nil]
  exact ⟨i.encode, recordAt?_eq_some last, Instruction.decode_encode ..⟩

/-- Jumps lead where they were aimed, as far as 24 bits go. An instruction that is patched with the
distance to a target, or is emitted with it, has the operation that it had, and is found at its
address with a distance in reach; it leads to the target up to a multiple of `2 ^ 24`, and to the
target itself exactly if that is in reach. Nothing else in a stream is changed by the patch. A
distance that does not change on its way is one in reach: reading the low 24 bits of a word as
signed, whatever its high byte, gives back the number that an operand was made of exactly then. That
reading is a shift up to the sign bit and back, and adding the distance in 64 bits is adding it. -/
theorem jumps_resolve (code : Code) (address : Nat) (target : Int) :
    (∀ i, code.Has address i → ∃ after jump, code.patch address (target - address) = .ok after ∧
      after.Has address jump ∧ jump.opcode = i.opcode ∧
      Instruction.Aims address target (jump.target address) ∧
      ∀ instructions, code.decode = .ok instructions →
        after.decode = .ok (instructions.set address jump)) ∧
    (∀ opcode, code.bytes.size % 4 = 0 → address = code.instructionCount →
      ∃ jump, (code.emit opcode (target - address)).Has address jump ∧ jump.opcode = opcode ∧
        Instruction.Aims address target (jump.target address)) ∧
    (∀ (opcode : Opcode) (n : Int64) (word : UInt32),
      word &&& 0xffffff = n.toUInt64.toUInt32 &&& 0xffffff →
        (Instruction.make opcode n.toInt).index = (word &&& 0xffffff).toNat ∧
        (Instruction.make opcode n.toInt).offset = signExtend24 word ∧
        (signExtend24 word = n.toInt ↔ Instruction.InReach n.toInt)) ∧
    (∀ word, signExtend24 word = (((word &&& 0xffffff) <<< 8).toInt32 >>> 8).toInt) ∧
    ∀ (i : Instruction) (word : UInt64), word.toNat < 0x4000000000000000 →
      (i.wordTarget word).toInt = i.target word.toNat := by
  refine ⟨fun i here => ?_, fun opcode whole next => ?_, fun opcode n word same => ?_,
    Instruction.signExtend24_eq_shift, fun i word near => i.toInt_wordTarget near⟩
  · obtain ⟨after, patched, there⟩ := has_of_patch here (target - address)
    refine ⟨after, .make i.opcode (target - address), patched, there, rfl,
      Instruction.aims_make .., fun instructions decoded => ?_⟩
    rw [decode_of_patch decoded patched, List.modify_eq_set,
      (spells_of_decode decoded).getElem?_of_has here, Option.getD_some]
  · subst next
    exact ⟨_, has_of_push whole _, rfl, Instruction.aims_make ..⟩
  · have index : (Instruction.make opcode n.toInt).index = (word &&& 0xffffff).toNat := by
      rw [same]
      exact Instruction.index_make_eq_mask opcode n
    have read := Instruction.signExtend24_eq_offset index
    refine ⟨index, read.symm, ?_⟩
    rw [read]
    exact Instruction.offset_make_eq_iff opcode n.toInt

end Code

end HotPath
