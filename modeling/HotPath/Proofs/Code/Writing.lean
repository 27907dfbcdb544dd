import HotPath.Proofs.Code.Reading
import Mathlib.Data.List.Induction

/-!
# Writing code

Code is written by appending instructions and, when a distance becomes known, by replacing the three
bytes of an operand in place. `patch_ofList` says what such a patch is on the list of instructions
that a stream was made of, and with that every `Edit` of a stream is an edit of its list.

`written_entries` puts this together: after any edits, failed ones among them, decoding gives the
list on which the same edits have been made.
-/

namespace HotPath

/-- An operation with its operand as a number below `2 ^ 24`. -/
abbrev Entry := Opcode × Nat

namespace Entry

/-- An operation with what an operand keeps of a number. -/
def make (opcode : Opcode) (operand : Int64) : Entry :=
  (opcode, (operand.toInt % 0x1000000).toNat)

end Entry

namespace Instruction

/-- The instruction as it is listed. -/
def entry (i : Instruction) : Entry := (i.opcode, i.index)

/-- An instruction that is made of an opcode and an operand has these for its entry. -/
@[simp] theorem entry_make (opcode : Opcode) (operand : Int64) :
    (make opcode operand.toInt).entry = Entry.make opcode operand := by
  rw [entry, index, make, BitVec.toNat_ofInt, Entry.make]
  rfl

end Instruction

namespace Code

section Lists

/-- Code is made of two lists by pushing the second on the first. -/
theorem ofList_append (before after : List Instruction) :
    ofList (before ++ after) = after.foldl push (ofList before) := List.foldl_append

/-- Pushing an instruction adds it to the list. -/
theorem ofList_concat (before : List Instruction) (i : Instruction) :
    (ofList before).push i = ofList (before ++ [i]) := (ofList_append before [i]).symm

/-- Code has as many instructions as the list that it is made of. -/
theorem instructionCount_ofList (instructions : List Instruction) :
    (ofList instructions).instructionCount = instructions.length :=
  (spells_ofList instructions).count

/-- A stream that can be decoded is that of the list it is decoded to. -/
theorem eq_ofList_of_decode {code : Code} {instructions : List Instruction}
    (decoded : code.decode = .ok instructions) : code = ofList instructions := by
  have bytes := decode_eq_ok_iff_bytes.mp decoded
  rw [← toList_bytes_ofList] at bytes
  exact congrArg Code.mk (Array.toList_inj.mp bytes)

/-- The bytes of one instruction stand between those of the instructions before and behind it. -/
theorem bytes_ofList_split (before after : List Instruction) (i : Instruction) :
    (ofList (before ++ i :: after)).bytes =
      ((before.flatMap fun i => i.encode.bytes) ++
        (i.encode.bytes ++ after.flatMap fun i => i.encode.bytes)).toArray := by
  apply Array.toList_inj.mp
  rw [toList_bytes_ofList, List.flatMap_append, List.flatMap_cons]

/-- Patching changes the operand of one instruction. -/
theorem patch_ofList (before after : List Instruction) (i : Instruction) (operand : Int) :
    (ofList (before ++ i :: after)).patch before.length operand =
      .ok (ofList (before ++ .make i.opcode operand :: after)) := by
  have inside : before.length < (ofList (before ++ i :: after)).instructionCount := by
    rw [instructionCount_ofList, List.length_append, List.length_cons]
    omega
  have patched := bytes_ofList_split before after (.make i.opcode operand)
  have length := length_flatMap_encode before
  unfold patch
  rw [if_pos inside, bytes_ofList_split]
  generalize (before.flatMap fun i => i.encode.bytes) = low at length patched ⊢
  have set (rest : List UInt8) (k : Nat) (byte : UInt8) :
      (low ++ rest).set (4 * before.length + k) byte = low ++ rest.set k byte := by
    rw [← length, List.set_append_right _ _ (Nat.le_add_right _ _), Nat.add_sub_cancel_left]
  simp only [List.setIfInBounds_toArray, set]
  congr 1
  exact congrArg Code.mk patched.symm

end Lists

section Patches

variable {code : Code} {instructions : List Instruction} {address : Nat}

/-- A patch fails exactly if there is no instruction at its address. -/
theorem patch_eq_error_iff {operand : Int} {error : CodeError} :
    code.patch address operand = .error error ↔
      code.instructionCount ≤ address ∧
        error = .addressOutOfRange address code.instructionCount := by
  unfold patch
  by_cases inside : address < code.instructionCount
  · rw [if_pos inside]
    simp [Nat.not_le_of_lt inside]
  · rw [if_neg inside]
    simp [Nat.le_of_not_lt inside, eq_comm]

/-- A patch of a stream is a change of one instruction in the list that the stream was made of. -/
theorem patch_ofList_modify (inside : address < instructions.length) (operand : Int) :
    (ofList instructions).patch address operand =
      .ok (ofList (instructions.modify address fun i => .make i.opcode operand)) := by
  have split := List.take_append_drop address instructions
  rw [List.drop_eq_getElem_cons inside] at split
  have before : (instructions.take address).length = address :=
    List.length_take_of_le (Nat.le_of_lt inside)
  have patched := patch_ofList (instructions.take address) (instructions.drop (address + 1))
    instructions[address] operand
  rw [split, before] at patched
  rw [patched, List.modify_eq_take_cons_drop inside]

/-- A patch of a stream that can be decoded is a change of one instruction in what it is decoded
to. -/
theorem decode_of_patch {after : Code} {operand : Int} (decoded : code.decode = .ok instructions)
    (patched : code.patch address operand = .ok after) :
    after.decode = .ok (instructions.modify address fun i => .make i.opcode operand) := by
  rw [eq_ofList_of_decode decoded] at patched
  have inside : address < instructions.length := by
    refine Nat.lt_of_not_le fun past => ?_
    rw [← instructionCount_ofList] at past
    rw [patch_eq_error_iff.mpr ⟨past, rfl⟩] at patched
    cases patched
  rw [patch_ofList_modify inside] at patched
  cases patched
  exact decode_ofList _

/-- The last operation of a stream is that of the last instruction in its list. -/
theorem lastOpcode?_ofList (instructions : List Instruction) :
    (ofList instructions).lastOpcode? = instructions.getLast?.map Instruction.opcode := by
  unfold lastOpcode?
  rw [instructionCount_ofList, List.getLast?_eq_getElem?]
  by_cases nothing : instructions.length = 0
  · rw [if_pos nothing, List.length_eq_zero_iff.mp nothing]
    rfl
  · have inside : instructions.length - 1 < instructions.length := by omega
    obtain ⟨record, found, decodes⟩ :=
      (spells_ofList instructions).inside (List.getElem?_eq_getElem inside)
    have code : record.code = instructions[instructions.length - 1].opcode.byte :=
      congrArg Record.code (Instruction.encode_of_decode decodes).symm
    rw [if_neg nothing, found, List.getElem?_eq_getElem inside, Option.bind_some, code,
      Opcode.ofByte?_byte]
    rfl

end Patches

/-- What can be done to a stream that is being written. -/
inductive Edit where
  /-- Append an operation with an operand that may be too large for it. -/
  | emit (opcode : Opcode) (operand : Int64)
  /-- Append an instruction. -/
  | push (i : Instruction)
  /-- Replace the operand of the instruction at an address. -/
  | patch (address : Nat) (operand : Int64)
deriving DecidableEq, Repr

namespace Edit

/-- Make an edit, or say why it cannot be made. -/
def apply (code : Code) : Edit → Except CodeError Code
  | emit opcode operand => .ok (code.emit opcode operand.toInt)
  | push i => .ok (code.push i)
  | patch address operand => code.patch address operand.toInt

/-- The same edit of a list of entries. A patch leaves the operation of its entry alone. -/
def amend (entries : List Entry) : Edit → List Entry
  | emit opcode operand => entries ++ [.make opcode operand]
  | push i => entries ++ [i.entry]
  | patch address operand => entries.modify address fun entry => .make entry.1 operand

end Edit

/-- The stream after an edit. If the edit fails, it is the one before. -/
def edit (code : Code) (edit : Edit) : Code :=
  match edit.apply code with
  | .ok edited => edited
  | .error _ => code

/-- What has been written after some edits. -/
def written (edits : List Edit) : Code := edits.foldl edit empty

/-- The entries after the same edits. -/
def entries (edits : List Edit) : List Entry := edits.foldl Edit.amend []

section Edits

/-- The last edit is made to what the others have written. -/
theorem written_concat (edits : List Edit) (e : Edit) :
    written (edits ++ [e]) = (written edits).edit e := List.foldl_append

/-- The last edit amends the entries of the others. -/
theorem entries_concat (edits : List Edit) (e : Edit) :
    entries (edits ++ [e]) = e.amend (entries edits) := List.foldl_append

/-- An edit that fails leaves every byte as it was. -/
theorem edit_of_error {code : Code} {e : Edit} {error : CodeError}
    (failed : e.apply code = .error error) : code.edit e = code := by
  rw [edit, failed]

/-- An edit that succeeds is made. -/
theorem edit_of_ok {code edited : Code} {e : Edit} (done : e.apply code = .ok edited) :
    code.edit e = edited := by
  rw [edit, done]

/-- A patched list is listed as the patched entries. -/
theorem map_entry_modify (instructions : List Instruction) (address : Nat) (operand : Int64) :
    (instructions.modify address fun i => .make i.opcode operand.toInt).map Instruction.entry =
      (instructions.map Instruction.entry).modify address fun entry => .make entry.1 operand := by
  apply List.ext_getElem?
  intro place
  simp only [List.getElem?_map, List.getElem?_modify]
  by_cases here : address = place
  · cases instructions[place]? with
    | none => rfl
    | some i =>
      simp only [here, if_true]
      exact congrArg some (Instruction.entry_make i.opcode operand)
  · simp [here]

/-- One edit of a stream is the same edit of its entries. -/
theorem edit_ofList (e : Edit) (instructions : List Instruction) :
    ∃ edited, (ofList instructions).edit e = ofList edited ∧
      edited.map Instruction.entry = e.amend (instructions.map Instruction.entry) := by
  cases e with
  | emit opcode operand =>
    refine ⟨instructions ++ [Instruction.make opcode operand.toInt], ofList_concat .., ?_⟩
    rw [List.map_append, List.map_singleton, Instruction.entry_make]
    rfl
  | push i => exact ⟨instructions ++ [i], ofList_concat instructions i, List.map_append⟩
  | patch address operand =>
    refine ⟨instructions.modify address fun i => .make i.opcode operand.toInt, ?_,
      map_entry_modify instructions address operand⟩
    by_cases inside : address < instructions.length
    · exact edit_of_ok (patch_ofList_modify inside operand.toInt)
    · have past := Nat.le_of_not_lt inside
      rw [List.modify_eq_self past]
      refine edit_of_error (patch_eq_error_iff.mpr ⟨?_, rfl⟩)
      rwa [instructionCount_ofList]

/-- Any edits of an empty stream are the same edits of an empty list. -/
theorem written_eq_ofList (edits : List Edit) :
    ∃ instructions, written edits = ofList instructions ∧
      instructions.map Instruction.entry = entries edits := by
  induction edits using List.reverseRecOn with
  | nil => exact ⟨[], rfl, rfl⟩
  | append_singleton edits e ih =>
    obtain ⟨instructions, same, listed⟩ := ih
    obtain ⟨edited, next, relisted⟩ := edit_ofList e instructions
    refine ⟨edited, ?_, ?_⟩
    · rw [written_concat, same, next]
    · rw [entries_concat, relisted, listed]

end Edits

/-- Writing a stream is writing a list. After any edits, with failed patches among them, decoding
succeeds and gives exactly the entries that the same edits of a list give; the next address is the
length of that list, and the last operation is that of its last entry. At any such moment a patch
fails exactly if its address is not that of an entry, the error names the address and the number of
entries, and not a byte is changed. -/
theorem written_entries (edits : List Edit) :
    (written edits).decode.map (List.map Instruction.entry) = .ok (entries edits) ∧
      (written edits).instructionCount = (entries edits).length ∧
      (written edits).lastOpcode? = (entries edits).getLast?.map Prod.fst ∧
      ∀ (address : Nat) (operand : Int64),
        (∀ error, (written edits).patch address operand.toInt = .error error ↔
          (written edits).instructionCount ≤ address ∧
            error = .addressOutOfRange address (written edits).instructionCount) ∧
        ((written edits).instructionCount ≤ address →
          written (edits ++ [.patch address operand]) = written edits) := by
  obtain ⟨instructions, same, listed⟩ := written_eq_ofList edits
  refine ⟨?_, ?_, ?_, fun address operand => ⟨fun error => patch_eq_error_iff, fun past => ?_⟩⟩
  · rw [same, decode_ofList, ← listed]
    rfl
  · rw [same, instructionCount_ofList, ← listed, List.length_map]
  · rw [same, lastOpcode?_ofList, ← listed, List.getLast?_map, Option.map_map]
    rfl
  · rw [written_concat]
    exact edit_of_error (patch_eq_error_iff.mpr ⟨past, rfl⟩)

-- A patch of what is not there yet fails, a later one of the same address cuts its operand.
example :
    (written [.emit (.jump .always) 7, .patch 1 5, .emit .nop 0, .patch 0 (-2)]).decode =
      .ok [⟨.jump .always, 0xfffffe⟩, ⟨.nop, 0⟩] := by
  decide +kernel

end Code

end HotPath
