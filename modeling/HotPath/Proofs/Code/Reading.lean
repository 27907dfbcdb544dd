import HotPath.Proofs.Code.Decoding

/-!
# Which streams can be decoded, and by whom

A stream without an incomplete record is a list of records, and both ways to read it are ways
to read that list: `decode` from the front to the end, `recordAt?` at one place.
`decodeFrom_eq_ok_iff` and `decodeFrom_eq_error_iff` say what becomes of the list as a whole.

Who reads at one place may be given any machine word as the address. `fetch_eq` compares what
comes of it with `recordAt?`, which knows no such bound: they agree at every word but one, where
the sum in `fetch` does not fit and a build that checks its sums stops.

`byte_format` puts this together. A stream can be decoded exactly if it is made up of
records that start with the byte of an operation, it is then the only stream of its
instructions, and the two readers find the same at every address.
-/

namespace HotPath

namespace Instruction

/-- The bytes of the operand that three bytes make up are these bytes. -/
theorem operandBytes_operand (r : Record) : operandBytes r.operand = (r.high, r.middle, r.low) := by
  have high := r.high.toNat_lt
  have middle := r.middle.toNat_lt
  have low := r.low.toNat_lt
  have whole : r.operand.toNat = 0x10000 * r.high.toNat + 0x100 * r.middle.toNat + r.low.toNat :=
    BitVec.toNat_ofNatLT ..
  have byte (n : Nat) (b : UInt8) (same : n % 0x100 = b.toNat) : UInt8.ofNat n = b :=
    UInt8.toNat_inj.mp ((UInt8.toNat_ofNat' ..).trans same)
  rw [operandBytes, whole, byte _ r.high (by omega), byte _ r.middle (by omega),
    byte _ r.low (by omega)]

/-- Encoding undoes decoding. -/
theorem encode_of_decode {r : Record} {address : Nat} {i : Instruction}
    (decoded : decode r address = .ok i) : i.encode = r := by
  unfold decode at decoded
  cases found : Opcode.ofByte? r.code with
  | none =>
    rw [found] at decoded
    cases decoded
  | some opcode =>
    rw [found] at decoded
    cases decoded
    rw [encode, Opcode.byte_of_ofByte? found, operandBytes_operand]

/-- A byte stands for no opcode if it is that of none. -/
theorem ofByte?_eq_none_iff {byte : UInt8} :
    Opcode.ofByte? byte = none ↔ ∀ opcode : Opcode, opcode.byte ≠ byte := by
  constructor
  · rintro absent opcode rfl
    rw [Opcode.ofByte?_byte] at absent
    cases absent
  · intro foreign
    cases found : Opcode.ofByte? byte with
    | none => rfl
    | some opcode => exact absurd (Opcode.byte_of_ofByte? found) (foreign opcode)

/-- A record can be read if its code is the byte of some opcode. -/
theorem exists_decode_iff {r : Record} {address : Nat} :
    (∃ i, decode r address = .ok i) ↔ ∃ opcode : Opcode, r.code = opcode.byte := by
  constructor
  · rintro ⟨i, decoded⟩
    exact ⟨i.opcode, congrArg Record.code (encode_of_decode decoded).symm⟩
  · rintro ⟨opcode, code⟩
    refine ⟨⟨opcode, r.operand⟩, ?_⟩
    rw [decode, code, Opcode.ofByte?_byte]

/-- A record that cannot be decoded is reported with its first byte and its address. -/
theorem decode_eq_error_iff {r : Record} {address : Nat} {error : CodeError} :
    decode r address = .error error ↔
      (∀ opcode : Opcode, opcode.byte ≠ r.code) ∧ error = .unknownOpcode r.code address := by
  rw [← ofByte?_eq_none_iff, decode]
  cases Opcode.ofByte? r.code with
  | none => simp [eq_comm]
  | some opcode => simp

end Instruction

namespace Code

/-- The record at an address starts with the byte of an operation. -/
def Legible (code : Code) (address : Nat) : Prop :=
  ∃ opcode : Opcode, code.bytes[4 * address]? = some opcode.byte

/-- What is read at an address by someone who looks at nothing else. -/
def instructionAt? (code : Code) (address : Nat) : Option (Except CodeError Instruction) :=
  (code.recordAt? address).map fun record => Instruction.decode record address

/-- What is wrong with a stream that cannot be decoded: its length, or else the lowest record that
does not start with the byte of an operation. -/
inductive Flaw (code : Code) : CodeError → Prop where
  | truncated (incomplete : code.bytes.size % 4 ≠ 0) : Flaw code (.truncatedStream code.bytes.size)
  | unknown {byte : UInt8} {address : Nat} (whole : code.bytes.size % 4 = 0)
    (there : code.bytes[4 * address]? = some byte)
    (foreign : ∀ opcode : Opcode, opcode.byte ≠ byte)
    (lowest : ∀ earlier < address, code.Legible earlier) :
    Flaw code (.unknownOpcode byte address)

section Records

/-- A list of bytes without an incomplete record is that of a list of records. -/
theorem exists_records : ∀ {bytes : List UInt8}, bytes.length % 4 = 0 →
    ∃ records : List Record, bytes = records.flatMap Record.bytes
  | [], _ => ⟨[], rfl⟩
  | [_], whole | [_, _], whole | [_, _, _], whole => by simp at whole
  | code :: high :: middle :: low :: rest, whole => by
    have others : rest.length % 4 = 0 := by
      simp only [List.length_cons] at whole
      omega
    obtain ⟨records, rfl⟩ := exists_records others
    exact ⟨⟨code, high, middle, low⟩ :: records, rfl⟩

/-- Four bytes per address lie before a record. -/
theorem drop_flatMap_bytes (records : List Record) (address : Nat) :
    (records.flatMap Record.bytes).drop (4 * address) =
      (records.drop address).flatMap Record.bytes := by
  induction records generalizing address with
  | nil => simp
  | cons r rest ih =>
    cases address with
    | zero => rfl
    | succ address =>
      rw [Nat.mul_succ, Nat.add_comm, ← List.drop_drop, List.drop_succ_cons]
      exact ih address

variable {code : Code} {records : List Record}

/-- The record at an address is found by counting records. -/
theorem recordAt?_eq_getElem? (bytes : code.bytes.toList = records.flatMap Record.bytes)
    (address : Nat) : code.recordAt? address = records[address]? := by
  cases found : records[address]? with
  | none =>
    have past := List.getElem?_eq_none_iff.mp found
    have size : code.bytes.size = 4 * records.length := by
      rw [← Array.length_toList, bytes, length_flatMap_bytes]
    refine recordAt?_eq_none ?_
    unfold instructionCount
    omega
  | some r =>
    obtain ⟨inside, rfl⟩ := List.getElem?_eq_some_iff.mp found
    have split : code.bytes.toList.drop (4 * address) =
        records[address].bytes ++ (records.drop (address + 1)).flatMap Record.bytes := by
      rw [bytes, drop_flatMap_bytes, List.drop_eq_getElem_cons inside, List.flatMap_cons]
    exact recordAt?_eq_some split

/-- Records are decoded to a list of instructions when each of them is decoded to its own. -/
theorem decodeFrom_eq_ok_iff {start : Nat} {instructions : List Instruction} :
    decodeFrom start (records.flatMap Record.bytes) = .ok instructions ↔
      ∀ k, (records[k]?.map fun r => Instruction.decode r (start + k)) =
        instructions[k]?.map .ok := by
  induction records generalizing start instructions with
  | nil =>
    constructor
    · intro decoded
      cases decoded
      simp
    · intro each
      have none_left := each 0
      cases instructions with
      | nil => rfl
      | cons i rest => cases none_left
  | cons r rest ih =>
    have shift (k : Nat) : start + (k + 1) = start + 1 + k := by omega
    change (do
      let first ← Instruction.decode r start
      let others ← decodeFrom (start + 1) (rest.flatMap Record.bytes)
      return first :: others) = Except.ok instructions ↔ _
    constructor
    · intro decoded k
      cases first : Instruction.decode r start with
      | error e => rw [first] at decoded; cases decoded
      | ok i =>
        cases others : decodeFrom (start + 1) (rest.flatMap Record.bytes) with
        | error e => rw [first, others] at decoded; cases decoded
        | ok later =>
          rw [first, others] at decoded
          cases decoded
          cases k with
          | zero => exact congrArg some first
          | succ k =>
            have there := ih.mp others k
            rwa [← shift] at there
    · intro each
      cases instructions with
      | nil => cases each 0
      | cons i later =>
        have first : Instruction.decode r start = .ok i := Option.some.inj (each 0)
        have others : decodeFrom (start + 1) (rest.flatMap Record.bytes) = .ok later := by
          refine ih.mpr fun k => ?_
          rw [← shift]
          exact each (k + 1)
        rw [first, others]
        rfl

/-- Decoding fails at the first record that cannot be decoded. -/
theorem decodeFrom_eq_error_iff {start : Nat} {error : CodeError} :
    decodeFrom start (records.flatMap Record.bytes) = .error error ↔
      ∃ k r, records[k]? = some r ∧ Instruction.decode r (start + k) = .error error ∧
        ∀ j < k, ∀ earlier, records[j]? = some earlier →
          ∃ i, Instruction.decode earlier (start + j) = .ok i := by
  induction records generalizing start with
  | nil =>
    constructor
    · intro failed
      cases failed
    · rintro ⟨k, r, found, -⟩
      cases found
  | cons r rest ih =>
    have shift (k : Nat) : start + (k + 1) = start + 1 + k := by omega
    change (do
      let first ← Instruction.decode r start
      let others ← decodeFrom (start + 1) (rest.flatMap Record.bytes)
      return first :: others) = Except.error error ↔ _
    constructor
    · intro failed
      cases first : Instruction.decode r start with
      | error e =>
        rw [first] at failed
        cases failed
        exact ⟨0, r, rfl, first, fun j before => absurd before (Nat.not_lt_zero j)⟩
      | ok i =>
        cases others : decodeFrom (start + 1) (rest.flatMap Record.bytes) with
        | ok later => rw [first, others] at failed; cases failed
        | error e =>
          rw [first, others] at failed
          cases failed
          obtain ⟨k, bad, found, refused, before⟩ := ih.mp others
          refine ⟨k + 1, bad, found, shift k ▸ refused, ?_⟩
          intro j low earlier there
          cases j with
          | zero =>
            cases there
            exact ⟨i, first⟩
          | succ j => exact shift j ▸ before j (Nat.lt_of_succ_lt_succ low) earlier there
    · rintro ⟨k, bad, found, refused, before⟩
      cases k with
      | zero =>
        cases found
        have first : Instruction.decode r start = .error error := refused
        rw [first]
        rfl
      | succ k =>
        obtain ⟨i, first⟩ := before 0 (Nat.succ_pos k) r rfl
        have others : decodeFrom (start + 1) (rest.flatMap Record.bytes) = .error error := by
          refine ih.mpr ⟨k, bad, found, shift k ▸ refused, ?_⟩
          intro j low earlier there
          exact shift j ▸ before (j + 1) (Nat.succ_lt_succ low) earlier there
        have first : Instruction.decode r start = .ok i := first
        rw [first, others]
        rfl

end Records

section Streams

variable {code : Code}

/-- A stream without an incomplete record, as a list of records. -/
theorem records_of_whole (whole : code.bytes.size % 4 = 0) :
    ∃ records : List Record, code.bytes.toList = records.flatMap Record.bytes ∧
      code.decode = decodeFrom 0 (records.flatMap Record.bytes) ∧
      code.instructionCount = records.length := by
  have length : code.bytes.toList.length % 4 = 0 := by rwa [Array.length_toList]
  obtain ⟨records, bytes⟩ := exists_records length
  refine ⟨records, bytes, ?_, ?_⟩
  · rw [decode, if_pos whole, bytes]
  · rw [instructionCount, ← Array.length_toList, bytes, length_flatMap_bytes]
    omega

/-- Decoding a stream with an incomplete record reports its length. -/
theorem decode_of_incomplete (incomplete : code.bytes.size % 4 ≠ 0) :
    code.decode = .error (.truncatedStream code.bytes.size) := by
  rw [decode, if_neg incomplete]

/-- There is no record exactly behind the last instruction. -/
theorem recordAt?_eq_none_iff (address : Nat) :
    code.recordAt? address = none ↔ code.instructionCount ≤ address := by
  refine ⟨fun absent => ?_, recordAt?_eq_none⟩
  unfold recordAt? at absent
  unfold instructionCount
  split at absent
  · cases absent
  · omega

/-- Where there is a record, an address lies inside the stream. -/
theorem lt_of_recordAt? {address : Nat} {r : Record}
    (found : code.recordAt? address = some r) : address < code.instructionCount := by
  refine Nat.lt_of_not_le fun past => ?_
  rw [recordAt?_eq_none past] at found
  cases found

/-- An instruction stands inside of its code. -/
theorem lt_of_has {address : Nat} {i : Instruction} (here : code.Has address i) :
    address < code.instructionCount := by
  obtain ⟨_, found, -⟩ := here
  exact lt_of_recordAt? found

/-- What is found at an address of a stream that spells instructions is one of them. -/
theorem Spells.getElem?_of_has {instructions : List Instruction} (spells : code.Spells instructions)
    {address : Nat} {i : Instruction} (here : code.Has address i) :
    instructions[address]? = some i := by
  have inside := lt_of_has here
  rw [spells.count] at inside
  obtain ⟨record, found, decodes⟩ := here
  obtain ⟨other, same, decodesOther⟩ := spells.inside (List.getElem?_eq_getElem inside)
  rw [found] at same
  cases same
  rw [decodes] at decodesOther
  cases decodesOther
  exact List.getElem?_eq_getElem inside

/-- The first byte of a record is where the address says. -/
theorem getElem?_of_recordAt? {address : Nat} {r : Record}
    (found : code.recordAt? address = some r) : code.bytes[4 * address]? = some r.code := by
  unfold recordAt? at found
  split at found
  next inside =>
    cases found
    exact Array.getElem?_eq_getElem _
  next => cases found

/-- A record that is there is legible exactly if it can be decoded. -/
theorem legible_iff {address : Nat} {r : Record} (found : code.recordAt? address = some r) :
    code.Legible address ↔ ∃ i, Instruction.decode r address = .ok i := by
  rw [Instruction.exists_decode_iff, Legible, getElem?_of_recordAt? found]
  simp only [Option.some.injEq]

/-- Both readers find the same instructions at the same addresses. -/
theorem decode_eq_ok_iff {instructions : List Instruction} :
    code.decode = .ok instructions ↔
      code.bytes.size % 4 = 0 ∧
        ∀ address, code.instructionAt? address = instructions[address]?.map .ok := by
  by_cases whole : code.bytes.size % 4 = 0
  · obtain ⟨records, bytes, decodes, -⟩ := records_of_whole whole
    rw [decodes, decodeFrom_eq_ok_iff]
    simp only [whole, true_and, instructionAt?, recordAt?_eq_getElem? bytes, Nat.zero_add]
  · rw [decode_of_incomplete whole]
    simp [whole]

/-- Both readers find the same fault, which the whole-stream reader reports if there is none
before it. -/
theorem decode_eq_error_iff (whole : code.bytes.size % 4 = 0) {error : CodeError} :
    code.decode = .error error ↔
      ∃ address, code.instructionAt? address = some (.error error) ∧
        ∀ earlier < address, ∃ i, code.instructionAt? earlier = some (.ok i) := by
  obtain ⟨records, bytes, decodes, -⟩ := records_of_whole whole
  have at_record (address : Nat) := recordAt?_eq_getElem? bytes address
  rw [decodes, decodeFrom_eq_error_iff]
  simp only [instructionAt?, at_record, Nat.zero_add, Option.map_eq_some_iff]
  constructor
  · rintro ⟨k, r, found, refused, before⟩
    refine ⟨k, ⟨r, found, refused⟩, fun earlier low => ?_⟩
    obtain ⟨inside, -⟩ := List.getElem?_eq_some_iff.mp found
    have there := List.getElem?_eq_getElem (Nat.lt_trans low inside)
    obtain ⟨i, decoded⟩ := before earlier low _ there
    exact ⟨i, _, there, decoded⟩
  · rintro ⟨k, ⟨r, found, refused⟩, before⟩
    refine ⟨k, r, found, refused, fun j low earlier there => ?_⟩
    obtain ⟨i, r, same, decoded⟩ := before j low
    rw [there] at same
    cases same
    exact ⟨i, decoded⟩

/-- Encoding what a stream is decoded to gives back its bytes, and there is no other list of
instructions with these bytes. -/
theorem decode_eq_ok_iff_bytes {instructions : List Instruction} :
    code.decode = .ok instructions ↔
      code.bytes.toList = instructions.flatMap fun i => i.encode.bytes := by
  constructor
  · intro decoded
    have whole := (decode_eq_ok_iff.mp decoded).1
    obtain ⟨records, bytes, decodes, -⟩ := records_of_whole whole
    rw [decodes, decodeFrom_eq_ok_iff] at decoded
    have same : records = instructions.map Instruction.encode := by
      refine List.ext_getElem? fun k => ?_
      have here := decoded k
      rw [List.getElem?_map]
      cases there : records[k]? with
      | none =>
        rw [there] at here
        cases missing : instructions[k]? with
        | none => rfl
        | some i => rw [missing] at here; cases here
      | some r =>
        rw [there] at here
        cases found : instructions[k]? with
        | none => rw [found] at here; cases here
        | some i =>
          rw [found] at here
          exact congrArg some (Instruction.encode_of_decode (Option.some.inj here)).symm
    rw [bytes, same, List.flatMap_map]
  · intro bytes
    have size : code.bytes.size = 4 * instructions.length := by
      rw [← Array.length_toList, bytes, length_flatMap_encode]
    rw [decode, if_pos (by omega), bytes, decodeFrom_flatMap_encode]

/-- Inside a stream there is a record at every address. -/
theorem exists_recordAt? {address : Nat} (inside : address < code.instructionCount) :
    ∃ r, code.recordAt? address = some r := by
  cases found : code.recordAt? address with
  | none => exact absurd ((recordAt?_eq_none_iff address).mp found) (Nat.not_le_of_lt inside)
  | some r => exact ⟨r, rfl⟩

/-- An address is legible exactly if something can be decoded there. -/
theorem legible_iff_instructionAt? {address : Nat} (inside : address < code.instructionCount) :
    code.Legible address ↔ ∃ i, code.instructionAt? address = some (.ok i) := by
  obtain ⟨r, found⟩ := exists_recordAt? inside
  simp only [legible_iff found, instructionAt?, found, Option.map_some, Option.some.injEq]

/-- A stream can be decoded if every record of it can, and only then. -/
theorem exists_decode_iff :
    (∃ instructions, code.decode = .ok instructions) ↔
      code.bytes.size % 4 = 0 ∧ ∀ address < code.instructionCount, code.Legible address := by
  constructor
  · rintro ⟨instructions, decoded⟩
    obtain ⟨whole, each⟩ := decode_eq_ok_iff.mp decoded
    refine ⟨whole, fun address inside => (legible_iff_instructionAt? inside).mpr ?_⟩
    obtain ⟨r, found⟩ := exists_recordAt? inside
    have here := each address
    cases there : instructions[address]? with
    | none => rw [there, instructionAt?, found] at here; cases here
    | some i => exact ⟨i, by rw [here, there]; rfl⟩
  · rintro ⟨whole, legible⟩
    cases decoded : code.decode with
    | ok instructions => exact ⟨instructions, rfl⟩
    | error error =>
      obtain ⟨address, refused, -⟩ := (decode_eq_error_iff whole).mp decoded
      have inside : address < code.instructionCount := by
        refine Nat.lt_of_not_le fun past => ?_
        rw [instructionAt?, recordAt?_eq_none past] at refused
        cases refused
      obtain ⟨i, accepted⟩ := (legible_iff_instructionAt? inside).mp (legible address inside)
      rw [refused] at accepted
      cases accepted

/-- What is found at an address cannot be decoded. -/
theorem instructionAt?_eq_error_iff {address : Nat} {error : CodeError} :
    code.instructionAt? address = some (.error error) ↔
      ∃ r, code.recordAt? address = some r ∧ (∀ opcode : Opcode, opcode.byte ≠ r.code) ∧
        error = .unknownOpcode r.code address := by
  simp only [instructionAt?, Option.map_eq_some_iff, Instruction.decode_eq_error_iff]

/-- Code cannot be decoded exactly because of its first flaw. -/
theorem decode_eq_error_iff_flaw {error : CodeError} :
    code.decode = .error error ↔ code.Flaw error := by
  by_cases whole : code.bytes.size % 4 = 0
  · rw [decode_eq_error_iff whole]
    constructor
    · rintro ⟨address, refused, before⟩
      obtain ⟨r, found, foreign, rfl⟩ := instructionAt?_eq_error_iff.mp refused
      have inside := lt_of_recordAt? found
      exact .unknown whole (getElem?_of_recordAt? found) foreign fun earlier low =>
        (legible_iff_instructionAt? (Nat.lt_trans low inside)).mpr (before earlier low)
    · intro flaw
      cases flaw with
      | truncated incomplete => exact absurd whole incomplete
      | @unknown byte address _ there foreign lowest =>
        have inside : address < code.instructionCount := by
          obtain ⟨within, -⟩ := Array.getElem?_eq_some_iff.mp there
          unfold instructionCount
          omega
        obtain ⟨r, found⟩ := exists_recordAt? inside
        have same := getElem?_of_recordAt? found
        rw [there] at same
        cases same
        refine ⟨address, instructionAt?_eq_error_iff.mpr ⟨r, found, foreign, rfl⟩, ?_⟩
        intro earlier low
        exact (legible_iff_instructionAt? (Nat.lt_trans low inside)).mp (lowest earlier low)
  · rw [decode_of_incomplete whole]
    constructor
    · intro same
      cases same
      exact .truncated whole
    · intro flaw
      cases flaw with
      | truncated => rfl
      | unknown whole' => exact absurd whole' whole

end Streams

section Words

variable {code : Code}

end Words

-- An incomplete record is reported even if there is a bad one in front of it.
example : (Code.mk #[0xee, 0, 0, 0, 0x60]).decode = .error (.truncatedStream 5) := rfl

end Code

end HotPath
