import HotPath.Code.Stream

/-!
# Code and the instructions it spells

A machine reads code record by record; the optimizer and whoever writes code
think of a list of instructions. `Code.Spells` ties the two together: it says
what the record at every address decodes to. A stream that can be decoded
spells what it decodes to, and the stream of a list spells that list.
-/

namespace HotPath

namespace Instruction

@[simp] theorem operand_encode (i : Instruction) : i.encode.operand = i.operand := by
  apply BitVec.eq_of_toNat_eq
  have bound : i.operand.toNat < 2 ^ 24 := i.operand.isLt
  simp only [Record.operand, encode, operandBytes, BitVec.toNat_ofNatLT, UInt8.toNat_ofNat']
  omega

/-- Decoding undoes encoding, whatever the address. -/
@[simp] theorem decode_encode (i : Instruction) (address : Nat) :
    decode i.encode address = .ok i := by
  have code : i.encode.code = i.opcode.byte := rfl
  unfold decode
  rw [code, Opcode.ofByte?_byte, operand_encode]

/-- A distance that fits into the operand is read back unchanged. -/
theorem offset_make {opcode : Opcode} {distance : Int} (low : minOffset ≤ distance)
    (high : distance ≤ maxOffset) : (make opcode distance).offset = distance := by
  unfold minOffset at low
  unfold maxOffset at high
  rw [offset_eq_toInt, make, BitVec.toInt_ofInt]
  exact Int.bmod_eq_of_le (by omega) (by omega)

/-- An index that fits into the operand is read back unchanged. -/
theorem index_make {opcode : Opcode} {n : Nat} (fits : n < 0x1000000) :
    (make opcode n).index = n := by
  have whole : BitVec.ofInt 24 (n : Int) = BitVec.ofNat 24 n := BitVec.ofInt_natCast 24 n
  rw [index, make, whole, BitVec.toNat_ofNat, Nat.mod_eq_of_lt fits]

@[simp] theorem opcode_make (opcode : Opcode) (distance : Int) :
    (make opcode distance).opcode = opcode := rfl

end Instruction

namespace Code

/-- The record at an address is that of an instruction. -/
abbrev Has (code : Code) (address : Nat) (i : Instruction) : Prop :=
  ∃ record, code.recordAt? address = some record ∧ Instruction.decode record address = .ok i

/-- The records of a stream decode to these instructions, and there are no further records. -/
structure Spells (code : Code) (instructions : List Instruction) : Prop where
  count : code.instructionCount = instructions.length
  inside : ∀ {address : Nat} {i : Instruction}, instructions[address]? = some i →
    code.Has address i
  outside : ∀ {address : Nat}, instructions.length ≤ address → code.recordAt? address = none

/-- There is no record behind the last instruction. -/
theorem recordAt?_eq_none {code : Code} {address : Nat}
    (past : code.instructionCount ≤ address) : code.recordAt? address = none := by
  unfold instructionCount at past
  exact dif_neg (by omega)

/-- The record at an address, found in the list of bytes. -/
theorem recordAt?_eq_some {code : Code} {address : Nat} {r : Record} {rest : List UInt8}
    (found : code.bytes.toList.drop (4 * address) = r.bytes ++ rest) :
    code.recordAt? address = some r := by
  have length : 4 * address + 3 < code.bytes.size := by
    have lengths := congrArg List.length found
    simp only [Record.bytes, List.length_drop, Array.length_toList, List.length_append,
      List.length_cons, List.length_nil] at lengths
    omega
  have byte (k : Nat) : code.bytes[4 * address + k]? = (r.bytes ++ rest)[k]? := by
    rw [← found, List.getElem?_drop, Array.getElem?_toList]
  unfold recordAt?
  rw [dif_pos length]
  congr 1
  obtain ⟨c, high, middle, low⟩ := r
  simp only [Record.mk.injEq]
  refine ⟨?_, ?_, ?_, ?_⟩
  · simpa [Record.bytes, Array.getElem?_eq_some_iff, show 4 * address < code.bytes.size by omega]
      using byte 0
  · simpa [Record.bytes, Array.getElem?_eq_some_iff,
      show 4 * address + 1 < code.bytes.size by omega] using byte 1
  · simpa [Record.bytes, Array.getElem?_eq_some_iff,
      show 4 * address + 2 < code.bytes.size by omega] using byte 2
  · simpa [Record.bytes, Array.getElem?_eq_some_iff, length] using byte 3

/-- What decoding a list of bytes says about each of its records. -/
theorem decodeFrom_spec {start : Nat} {bytes : List UInt8} {instructions : List Instruction}
    (decoded : decodeFrom start bytes = .ok instructions) (whole : bytes.length % 4 = 0) :
    bytes.length = 4 * instructions.length ∧
      ∀ {k : Nat} {i : Instruction}, instructions[k]? = some i →
        ∃ (r : Record) (rest : List UInt8), bytes.drop (4 * k) = r.bytes ++ rest ∧
          Instruction.decode r (start + k) = .ok i := by
  induction start, bytes using decodeFrom.induct generalizing instructions with
  | case1 start code high middle low rest ih =>
    rw [decodeFrom] at decoded
    cases first : Instruction.decode ⟨code, high, middle, low⟩ start with
    | error e => rw [first] at decoded; cases decoded
    | ok i =>
      cases others : decodeFrom (start + 1) rest with
      | error e => rw [first, others] at decoded; cases decoded
      | ok later =>
        rw [first, others] at decoded
        cases decoded
        obtain ⟨length, records⟩ := ih others (by simp only [List.length_cons] at whole; omega)
        refine ⟨by simp only [List.length_cons, length]; omega, ?_⟩
        intro k j found
        cases k with
        | zero =>
          cases found
          exact ⟨_, rest, rfl, first⟩
        | succ k =>
          obtain ⟨r, tail, same, decodes⟩ := records (by simpa using found)
          refine ⟨r, tail, ?_, ?_⟩
          · rw [show 4 * (k + 1) = 4 * k + 4 by omega, ← same]
            rfl
          · rw [show start + (k + 1) = start + 1 + k by omega]
            exact decodes
  | case2 bytes start short =>
    have empty : bytes = [] := by
      match bytes with
      | [] => rfl
      | [_] | [_, _] | [_, _, _] => simp at whole
      | code :: high :: middle :: low :: rest => exact absurd rfl (short code high middle low rest)
    subst empty
    cases decoded
    exact ⟨rfl, by simp⟩

/-- A stream that can be decoded spells what it decodes to. -/
theorem spells_of_decode {code : Code} {instructions : List Instruction}
    (decoded : code.decode = .ok instructions) : code.Spells instructions := by
  unfold decode at decoded
  split at decoded
  next whole =>
    obtain ⟨length, records⟩ := decodeFrom_spec decoded (by simpa using whole)
    have count : code.instructionCount = instructions.length := by
      rw [instructionCount, ← Array.length_toList, length]
      omega
    refine ⟨count, ?_, fun past => recordAt?_eq_none (count ▸ past)⟩
    intro address i found
    obtain ⟨r, rest, same, decodes⟩ := records found
    exact ⟨r, recordAt?_eq_some same, by simpa using decodes⟩
  next => cases decoded

/-- Pushing instructions adds their bytes at the end. -/
theorem toList_bytes_foldl_push (instructions : List Instruction) (code : Code) :
    (instructions.foldl push code).bytes.toList =
      code.bytes.toList ++ instructions.flatMap fun i => i.encode.bytes := by
  induction instructions generalizing code with
  | nil => simp
  | cons i rest ih => simp [ih, push]

/-- The bytes of a list of instructions are those of their records, one after another. -/
theorem toList_bytes_ofList (instructions : List Instruction) :
    (ofList instructions).bytes.toList = instructions.flatMap fun i => i.encode.bytes :=
  toList_bytes_foldl_push instructions empty

/-- Every record takes four bytes. -/
theorem length_flatMap_bytes (records : List Record) :
    (records.flatMap Record.bytes).length = 4 * records.length := by
  induction records with
  | nil => rfl
  | cons r rest ih =>
    have four : r.bytes.length = 4 := rfl
    rw [List.flatMap_cons, List.length_append, ih, four, List.length_cons]
    omega

/-- An instruction has four bytes. -/
theorem length_flatMap_encode (instructions : List Instruction) :
    (instructions.flatMap fun i => i.encode.bytes).length = 4 * instructions.length := by
  have records := length_flatMap_bytes (instructions.map Instruction.encode)
  rwa [List.flatMap_map, List.length_map] at records

/-- The bytes of instructions decode to these instructions. -/
theorem decodeFrom_flatMap_encode (start : Nat) (instructions : List Instruction) :
    decodeFrom start (instructions.flatMap fun i => i.encode.bytes) = .ok instructions := by
  induction instructions generalizing start with
  | nil => rfl
  | cons i rest ih =>
    have first : Instruction.decode
        ⟨i.encode.code, i.encode.high, i.encode.middle, i.encode.low⟩ start = .ok i :=
      Instruction.decode_encode i start
    change decodeFrom start (i.encode.code :: i.encode.high :: i.encode.middle :: i.encode.low ::
      rest.flatMap fun i => i.encode.bytes) = _
    rw [decodeFrom, first, ih]
    rfl

/-- Decoding gives back the list that a stream was made of. -/
theorem decode_ofList (instructions : List Instruction) :
    (ofList instructions).decode = .ok instructions := by
  have size : (ofList instructions).bytes.size = 4 * instructions.length := by
    rw [← Array.length_toList, toList_bytes_ofList, length_flatMap_encode]
  rw [decode, if_pos (by omega), toList_bytes_ofList, decodeFrom_flatMap_encode]

/-- Code that is made of instructions spells them. -/
theorem spells_ofList (instructions : List Instruction) :
    (ofList instructions).Spells instructions :=
  spells_of_decode (decode_ofList instructions)

end Code

end HotPath
