import HotPath.Proofs.Machine.Evaluation
import HotPath.Proofs.Machine.References
import HotPath.Workload.Basic

/-!
# What blocks of code do

A block is entered at its start and left at its end, so what it does can be said
without saying where it stands: `Does` is about a block anywhere in any function. Blocks that
follow each other compose, a loop is done by its condition and its body in turn, and a
call by the body of its function, which `Returns`. `Fails` is for blocks that fault.

A block also makes a number of calls, none unless another number is given. The rules come in
pairs where that matters: the plain ones are about a block that makes none before one that
may, and those like `Does.andThen` add the calls of both up.

All of this is about machines with the limits that hold unless others are given. A
`Site` is where a call takes place, and a `Scene` what it has to work with there.
-/

namespace HotPath

namespace Code

/-- A block stands at an address. -/
def Holds (code : Code) (address : Nat) (block : Block) : Prop :=
  ∀ k i, block[k]? = some i → code.Has (address + k) i

namespace Holds

variable {code : Code} {address : Nat} {block next : Block} {i : Instruction}

/-- Code that spells a block holds it at its start. -/
theorem of_spells (spells : code.Spells block) : code.Holds 0 block := by
  intro k i here
  rw [Nat.zero_add]
  exact spells.inside here

/-- Code that holds two blocks in a row holds the first where both start. -/
theorem left (holds : code.Holds address (block ++ next)) : code.Holds address block := by
  intro k i here
  apply holds
  rw [List.getElem?_append_left (List.getElem?_eq_some_iff.mp here).1]
  exact here

/-- Code that holds two blocks in a row holds the second where the first ends. -/
theorem right (holds : code.Holds address (block ++ next)) :
    code.Holds (address + block.length) next := by
  intro k i here
  rw [Nat.add_assoc]
  apply holds
  rw [List.getElem?_append_right (Nat.le_add_right _ _), Nat.add_sub_cancel_left]
  exact here

/-- The first instruction of a block stands where the block does. -/
theorem head (holds : code.Holds address (i :: next)) : code.Has address i := holds 0 i rfl

/-- A block that is not empty ends inside the code. -/
theorem end_le (holds : code.Holds address block) (filled : 0 < block.length) :
    address + block.length ≤ code.instructionCount := by
  obtain ⟨record, found, _⟩ := holds (block.length - 1) block[block.length - 1]
    (List.getElem?_eq_getElem (by omega))
  have inside : address + (block.length - 1) < code.instructionCount := by
    apply Nat.lt_of_not_le
    intro past
    rw [recordAt?_eq_none past] at found
    cases found
  omega

end Holds

end Code

/-- Where a call takes place. -/
structure Site where
  /-- The operands of the callers. -/
  below : Array Value
  /-- The number of callers. -/
  depth : Nat
  low : below.size ≤ 4 * depth
  shallow : depth < 1024

/-- What a call has to work with. -/
structure Scene where
  slots : List Value
  /-- The operands of the call, the top one first. -/
  operands : List Value
  heap : Heap
  output : Array String

namespace Site

/-- The entries of the stack when a call has these operands. -/
def entries (site : Site) (operands : List Value) : Array Value :=
  operands.foldr (fun value entries => entries.push value) site.below

@[simp] theorem entries_nil (site : Site) : site.entries [] = site.below := rfl

@[simp] theorem entries_cons (site : Site) (value : Value) (operands : List Value) :
    site.entries (value :: operands) = (site.entries operands).push value := rfl

/-- Each operand is one entry above those of the callers. -/
theorem size_entries (site : Site) (operands : List Value) :
    (site.entries operands).size = site.below.size + operands.length := by
  induction operands with
  | nil => rfl
  | cons value rest ih =>
    rw [entries_cons, Array.size_push, ih, List.length_cons, Nat.add_assoc]

/-- There is always room for a few operands. -/
theorem room (site : Site) {operands : List Value} (few : operands.length < 1000) :
    (site.entries operands).size < 65536 := by
  have low := site.low
  have shallow := site.shallow
  rw [size_entries]
  omega

/-- The entries of the callers are below all operands. -/
theorem visible (site : Site) (operands : List Value) :
    site.below.size ≤ (site.entries operands).size := by
  rw [size_entries]
  exact Nat.le_add_right _ _

/-- Where a call takes place that is made from here and leaves these operands behind. -/
def callee (site : Site) (operands : List Value) (few : operands.length ≤ 4)
    (deeper : site.depth + 1 < 1024) : Site where
  below := site.entries operands
  depth := site.depth + 1
  low := by
    have low := site.low
    rw [size_entries]
    omega
  shallow := deeper

/-- What the operations of a call see. -/
def core (site : Site) (v : Scene) : Core where
  limits := {}
  heap := v.heap
  stack := ⟨site.entries v.operands, site.below.size, 65536⟩
  locals := ⟨v.slots.toArray⟩
  output := v.output

/-- The surroundings of a call that takes place here. -/
structure Fits (site : Site) (s : Surroundings) : Prop where
  base : s.frame.base = site.below.size
  depth : s.callers.depth = site.depth

/-- Where the function takes place that the host calls. -/
def outermost : Site := ⟨#[], 0, Nat.le_refl _, Nat.succ_pos _⟩

end Site

/-- The frame stands at another address, and other numbers have been counted. -/
def Surroundings.moved (s : Surroundings) (address : Nat) (counts : ExecutionCounts) :
    Surroundings where
  frame := { s.frame with pc := address }
  callers := s.callers
  counts := counts

/-- Going elsewhere in a function is no other place of the call. -/
theorem Site.Fits.moved {site : Site} {s : Surroundings} (fits : site.Fits s) (address : Nat)
    (counts : ExecutionCounts) : site.Fits (s.moved address counts) :=
  ⟨fits.base, fits.depth⟩

/-- Counting instructions is no other place of the call. -/
theorem Site.Fits.counted {site : Site} {s : Surroundings} (fits : site.Fits s) (count : Nat) :
    site.Fits (s.counted count) :=
  ⟨fits.base, fits.depth⟩

namespace Machine

open HotPath.Action

/-- The plain execution comes from one machine to another. -/
def Reaches (p : Program) (m after : Machine) : Prop :=
  ∃ count, run p Profiler.none count () m = .running () after

/-- The plain execution ends with a fault, and has printed no more than these lines. -/
def Faults (p : Program) (m : Machine) (fault : Fault) (output : Array String) : Prop :=
  ∃ count after, run p Profiler.none count () m = .faulted fault () after ∧ after.output = output

section Reaching

variable {p : Program} {first second third : Machine} {fault : Fault} {output : Array String}

/-- A machine is reached from itself. -/
theorem Reaches.refl (p : Program) (m : Machine) : Reaches p m m := ⟨0, rfl⟩

/-- One step that goes on reaches the machine after it. -/
theorem Reaches.of_step (stepped : step p Profiler.none () first = .running () second) :
    Reaches p first second :=
  ⟨1, by rw [run_one, stepped]⟩

/-- What is reached from a machine that is reached is reached. -/
theorem Reaches.trans (early : Reaches p first second) (late : Reaches p second third) :
    Reaches p first third := by
  obtain ⟨count, ran⟩ := early
  obtain ⟨more, goes⟩ := late
  exact ⟨count + more, by rw [run_add_of_running ran, goes]⟩

/-- A step that faults is an execution that does. -/
theorem Faults.of_step (stepped : step p Profiler.none () first = .faulted fault () second) :
    Faults p first fault second.output :=
  ⟨1, second, by rw [run_one, stepped], rfl⟩

/-- An execution that comes to a machine that faults is one that faults. -/
theorem Reaches.faults (early : Reaches p first second) (late : Faults p second fault output) :
    Faults p first fault output := by
  obtain ⟨count, ran⟩ := early
  obtain ⟨more, after, goes, printed⟩ := late
  exact ⟨count + more, after, by rw [run_add_of_running ran, goes], printed⟩

end Reaching

/-- Wherever a block stands, execution comes from its start to its end and makes one scene of
another, with so many calls. -/
def Does (p : Program) (site : Site) (block : Block) (before after : Scene) (made : Nat := 0) :
    Prop :=
  ∀ s, site.Fits s → s.frame.function.code.Holds s.frame.pc block →
    ∃ counts : ExecutionCounts, counts.calls = s.counts.calls + made ∧
      Reaches p ((site.core before).plug s)
        ((site.core after).plug (s.moved (s.frame.pc + block.length) counts))

/-- Wherever a block stands in a function that has been called, execution comes from its start back
to the caller, with a value and another heap and with so many calls. -/
def Returns (p : Program) (site : Site) (block : Block) (before : Scene) (value : Value)
    (heap : Heap) (made : Nat := 0) : Prop :=
  ∀ s caller callers address, site.Fits s → s.frame.function.code.Holds s.frame.pc block →
    s.callers = callers.push caller → s.frame.returnAddress = some address →
      ∃ counts : ExecutionCounts, counts.calls = s.counts.calls + made ∧
        Reaches p ((site.core before).plug s)
          (Core.plug ⟨{}, heap, ⟨site.below.push value, caller.base, 65536⟩, caller.locals,
            before.output⟩ ⟨{ caller with pc := address }, callers, counts⟩)

/-- Wherever a block stands, execution faults once it has come to its start. -/
def Fails (p : Program) (site : Site) (block : Block) (before : Scene) (fault : Fault) : Prop :=
  ∀ s, site.Fits s → s.frame.function.code.Holds s.frame.pc block →
    Faults p ((site.core before).plug s) fault before.output

/-- Wherever a block stands in the function that the host has called, execution comes from its start
to the end of the call, without an answer but with these lines printed and with so many calls. -/
def Finishes (p : Program) (block : Block) (before : Scene) (heap : Heap) (output : Array String)
    (made : Nat := 0) : Prop :=
  ∀ s, Site.outermost.Fits s → s.frame.function.code.Holds s.frame.pc block →
    s.callers = .empty → ∃ count after,
      run p Profiler.none count () ((Site.outermost.core before).plug s) =
        .finished none () after ∧ after.heap = heap ∧ after.output = output ∧
          after.counts.calls = s.counts.calls + made

variable {p : Program} {site : Site} {block next : Block} {v w x : Scene} {made more : Nat}

section Composition

variable {value : Value} {heap : Heap} {fault : Fault}

/-- The empty block does nothing. -/
theorem Does.nil (p : Program) (site : Site) (v : Scene) : Does p site [] v v :=
  fun s _ _ => ⟨s.counts, rfl, .refl p _⟩

/-- Two blocks in a row do one after the other what they do, and their calls add up. -/
theorem Does.andThen (first : Does p site block v w made) (second : Does p site next w x more) :
    Does p site (block ++ next) v x (made + more) := by
  intro s fits holds
  obtain ⟨counts, early, reached⟩ := first s fits holds.left
  obtain ⟨later, late, goes⟩ := second (s.moved _ counts) (fits.moved _ _) holds.right
  refine ⟨later, ?_, reached.trans ?_⟩
  · rw [late, ← Nat.add_assoc, ← early]
    rfl
  · rw [List.length_append, ← Nat.add_assoc]
    exact goes

/-- A block before others that makes no calls leaves their number as it is. -/
theorem Does.append (first : Does p site block v w) (second : Does p site next w x made) :
    Does p site (block ++ next) v x made := by
  have both := first.andThen second
  rwa [Nat.zero_add] at both

/-- An instruction that makes no calls goes before a block. -/
theorem Does.cons {i : Instruction} (first : Does p site [i] v w)
    (second : Does p site next w x made) : Does p site (i :: next) v x made := first.append second

/-- A block before one that returns has its calls counted too, and prints nothing. -/
theorem Does.andReturns (first : Does p site block v w made) (printed : w.output = v.output)
    (second : Returns p site next w value heap more) :
    Returns p site (block ++ next) v value heap (made + more) := by
  intro s caller callers address fits holds called returns
  obtain ⟨counts, early, reached⟩ := first s fits holds.left
  obtain ⟨later, late, goes⟩ := second (s.moved _ counts) caller callers address (fits.moved _ _)
    holds.right called returns
  rw [printed] at goes
  refine ⟨later, ?_, reached.trans goes⟩
  rw [late, ← Nat.add_assoc, ← early]
  rfl

/-- A block that makes no calls may go before one that returns. -/
theorem Does.returns (first : Does p site block v w) (printed : w.output = v.output)
    (second : Returns p site next w value heap made) :
    Returns p site (block ++ next) v value heap made := by
  have both := first.andReturns printed second
  rwa [Nat.zero_add] at both

/-- What stands behind a block that returns is not executed. -/
theorem Returns.followed (returns : Returns p site block v value heap made) (next : Block) :
    Returns p site (block ++ next) v value heap made :=
  fun s caller callers address fits holds => returns s caller callers address fits holds.left

/-- A block that prints nothing may go before one that faults. -/
theorem Does.fails (first : Does p site block v w made) (printed : w.output = v.output)
    (second : Fails p site next w fault) : Fails p site (block ++ next) v fault := by
  intro s fits holds
  obtain ⟨counts, _, reached⟩ := first s fits holds.left
  have fails := second (s.moved _ counts) (fits.moved _ _) holds.right
  rw [printed] at fails
  exact reached.faults fails

/-- What stands behind a block that faults is not executed. -/
theorem Fails.followed (fails : Fails p site block v fault) (next : Block) :
    Fails p site (block ++ next) v fault :=
  fun s fits holds => fails s fits holds.left

/-- A block before one that ends the call has its calls counted too. -/
theorem Does.andFinishes {output : Array String} (first : Does p .outermost block v w made)
    (second : Finishes p next w heap output more) :
    Finishes p (block ++ next) v heap output (made + more) := by
  intro s fits holds alone
  obtain ⟨counts, early, start, ran⟩ := first s fits holds.left
  obtain ⟨count, after, ends, left, printed, late⟩ :=
    second (s.moved _ counts) (fits.moved _ _) holds.right alone
  refine ⟨start + count, after, by rw [run_add_of_running ran, ends], left, printed, ?_⟩
  rw [late, ← Nat.add_assoc, ← early]
  rfl

/-- A block that makes no calls may go before one that ends the call. -/
theorem Does.finishes {output : Array String} (first : Does p .outermost block v w)
    (second : Finishes p next w heap output made) :
    Finishes p (block ++ next) v heap output made := by
  have both := first.andFinishes second
  rwa [Nat.zero_add] at both

end Composition

section Instructions

variable {i : Instruction} {value : Value} {operands rest : List Value} {heap : Heap}

/-- An instruction that another one follows. -/
theorem does_of_perform
    (performed : ∀ s address length, perform p i address length ((site.core v).plug s) =
      .ok .next ((site.core w).plug s)) : Does p site [i] v w := by
  intro s fits holds
  exact ⟨(s.counted 1).counts, rfl, .of_step (step_of_next holds.head (performed _ _ _))⟩

/-- An instruction that comes to one action. -/
theorem does_of_action {action : Action Machine Unit}
    (comes : ∀ address length, perform p i address length = (do action; return .next))
    (works : ∀ s, action ((site.core v).plug s) = .ok () ((site.core w).plug s)) :
    Does p site [i] v w := by
  refine does_of_perform fun s address length => ?_
  rw [comes, bind_of_ok (works s), pure_apply]

/-- An instruction that faults. -/
theorem fails_of_perform {fault : Fault}
    (failed : ∀ s address length, ∃ after, perform p i address length ((site.core v).plug s) =
      .error fault (Core.plug after s) ∧ after.output = v.output) : Fails p site [i] v fault := by
  intro s fits holds
  obtain ⟨after, failed, printed⟩ := failed (s.counted 1) s.frame.pc
    s.frame.function.code.instructionCount
  have faults := Faults.of_step (p := p) (step_of_error holds.head failed)
  rwa [← printed]

/-- A constant becomes the top operand. -/
theorem does_pushInt {n : Int64} (opcode : i.opcode = .pushInt)
    (found : p.intConstants[i.index]? = some n) (few : v.operands.length < 1000) :
    Does p site [i] v { v with operands := .int n :: v.operands } :=
  does_of_perform fun s address length => perform_pushInt s address length opcode found (site.room few)

/-- The value of a slot becomes the top operand, with a reference more if it is an array. -/
theorem does_loadLocal {slot : Nat} (opcode : i.opcode = .loadLocal) (index : i.index = slot)
    (found : v.slots[slot]? = some value)
    (retained : Heap.retainValue value v.heap = .ok () heap) (few : v.operands.length < 1000) :
    Does p site [i] v { v with operands := value :: v.operands, heap } := by
  refine does_of_perform fun s address length => ?_
  have held : (site.core v).locals.slots[i.index]? = some value := by
    simp only [Site.core, index, List.getElem?_toArray, found]
  exact perform_loadLocal s address length opcode held retained (site.room few)

/-- The top operand becomes the value of a slot, and what was there is given back. -/
theorem does_storeLocal {slot : Nat} {previous : Value} (opcode : i.opcode = .storeLocal)
    (index : i.index = slot) (operands : v.operands = value :: rest)
    (found : v.slots[slot]? = some previous)
    (released : Heap.releaseValue previous v.heap = .ok () heap) :
    Does p site [i] v { v with slots := v.slots.set slot value, operands := rest, heap } := by
  refine does_of_perform fun s address length => ?_
  have held : (site.core v).locals.slots[i.index]? = some previous := by
    simp only [Site.core, index, List.getElem?_toArray, found]
  have entries : (site.core v).stack.entries = (site.entries rest).push value := by
    simp only [Site.core, operands, Site.entries_cons]
  rw [perform_storeLocal s address length opcode entries (site.visible rest) held released]
  simp only [Site.core, Core.withEntries, Locals.put, index, List.setIfInBounds_toArray]

/-- The two operands on the top of the stack, and room for them. -/
theorem core_operands {a b : Value} (operands : v.operands = b :: a :: rest)
    (few : rest.length < 900) :
    (site.core v).stack.entries = ((site.entries rest).push a).push b ∧
      (site.core v).stack.entries.size ≤ (site.core v).stack.limit := by
  have entries : (site.core v).stack.entries = ((site.entries rest).push a).push b := by
    simp only [Site.core, operands, Site.entries_cons]
  have short : (b :: a :: rest).length < 1000 := by
    simp only [List.length_cons]
    omega
  refine ⟨entries, ?_⟩
  rw [entries]
  exact Nat.le_of_lt (site.room short)

/-- The result of an operation that cannot fault takes the place of its operands. -/
theorem does_intBinary {operation : IntOperation} {a b : Int64}
    (opcode : i.opcode = .intBinary operation) (total : operation.isDivision = false)
    (operands : v.operands = .int b :: .int a :: rest) (few : rest.length < 900) :
    Does p site [i] v { v with operands := .int (operation.apply a b) :: rest } := by
  refine does_of_perform fun s address length => ?_
  obtain ⟨entries, room⟩ := core_operands operands few
  exact perform_intBinary s address length opcode total entries (site.visible rest) room

/-- Comparing two integers. -/
theorem does_compareInt {comparison : Comparison} {a b : Int64}
    (opcode : i.opcode = .compareInt comparison)
    (operands : v.operands = .int b :: .int a :: rest) (few : rest.length < 900) :
    Does p site [i] v { v with operands := .bool (comparison.ints a b) :: rest } := by
  refine does_of_action (fun _ _ => by rw [perform, opcode]) fun s => ?_
  obtain ⟨entries, room⟩ := core_operands operands few
  exact intBinary_plug s entries (site.visible rest) room _

end Instructions

section Jumps

/-- An instruction that sends control to an address reaches it. -/
theorem reaches_of_goto {i : Instruction} {c after : Core} {s : Surroundings} {target : Nat}
    (here : s.frame.function.code.Has s.frame.pc i)
    (goes : perform p i s.frame.pc s.frame.function.code.instructionCount (c.plug (s.counted 1)) =
      .ok (.goto target) (after.plug (s.counted 1))) :
    Reaches p (c.plug s) (after.plug (s.moved target (s.counted 1).counts)) := by
  apply Reaches.of_step
  rw [step, advance_eq here, bind_of_ok goes]
  rfl

/-- Where a jump over a distance leads that an operand can hold. -/
theorem jumpTarget_make {opcode : Opcode} {distance : Int} {address length target : Nat}
    (leads : (target : Int) = address + distance) (near : distance.natAbs < 0x800000)
    (inside : target ≤ length) :
    jumpTarget (.make opcode distance) address length = .ok target := by
  have low : Instruction.minOffset ≤ distance := by
    unfold Instruction.minOffset
    omega
  have high : distance ≤ Instruction.maxOffset := by
    unfold Instruction.maxOffset
    omega
  apply jumpTarget_eq _ inside
  rw [Instruction.target, Instruction.offset_make low high, leads]

/-- A boolean on top of the operands is taken off them. -/
theorem popBool_plug {b : Bool} {operands : List Value} (popped : v.operands = .bool b :: operands)
    (s : Surroundings) :
    popBool ((site.core v).plug s) = .ok b ((site.core { v with operands }).plug s) := by
  have entries : (site.core v).stack.entries = (site.entries operands).push (.bool b) := by
    simp only [Site.core, popped, Site.entries_cons]
  have read : Value.asBool? (.bool b) = some b := rfl
  exact popAs_plug entries (site.visible operands) read s

/-- A jump that needs the other truth value is passed, wherever it would lead. -/
theorem does_passJump {distance : Int} {b expected : Bool} {operands : List Value}
    (other : b ≠ expected) (popped : v.operands = .bool b :: operands) :
    Does p site [.make (.jump (.when expected)) distance] v { v with operands } := by
  refine does_of_perform fun s address length => ?_
  rw [perform_jump p (Instruction.opcode_make _ _), jump, bind_of_ok (popBool_plug popped s),
    if_neg other, pure_apply]

/-- A jump that needs this truth value is taken. -/
theorem reaches_of_jump {distance : Int} {b : Bool} {operands : List Value} {s : Surroundings}
    {target : Nat}
    (here : s.frame.function.code.Has s.frame.pc (.make (.jump (.when b)) distance))
    (popped : v.operands = .bool b :: operands)
    (leads : (target : Int) = s.frame.pc + distance) (near : distance.natAbs < 0x800000)
    (inside : target ≤ s.frame.function.code.instructionCount) :
    Reaches p ((site.core v).plug s)
      ((site.core { v with operands }).plug (s.moved target (s.counted 1).counts)) := by
  apply reaches_of_goto here
  rw [perform_jump p (Instruction.opcode_make _ _), jumpTarget_make leads near inside, jump,
    bind_of_ok (popBool_plug popped (s.counted 1)), if_pos rfl]
  rfl

/-- An unconditional jump is taken. -/
theorem reaches_of_jump_always {distance : Int} {s : Surroundings} {target : Nat}
    (here : s.frame.function.code.Has s.frame.pc (.make (.jump .always) distance))
    (leads : (target : Int) = s.frame.pc + distance) (near : distance.natAbs < 0x800000)
    (inside : target ≤ s.frame.function.code.instructionCount) :
    Reaches p ((site.core v).plug s) ((site.core v).plug (s.moved target (s.counted 1).counts)) := by
  apply reaches_of_goto here
  rw [perform_jump p (Instruction.opcode_make _ _), jumpTarget_make leads near inside]
  rfl

/-- A body that is to be skipped. -/
theorem does_skipUnless {body : Block} {operands : List Value} (short : body.length < 0x10000)
    (popped : v.operands = .bool false :: operands) :
    Does p site (Block.skipUnless body) v { v with operands } := by
  intro s fits holds
  have ends := holds.end_le (Nat.succ_pos body.length)
  rw [Block.skipUnless, List.length_cons] at ends ⊢
  refine ⟨(s.counted 1).counts, rfl, reaches_of_jump holds.head popped ?_ ?_ ends⟩ <;> omega

/-- A loop is its condition, the jump out, its body and the jump back. -/
theorem length_loop (condition body : Block) :
    (Block.loop condition body).length = condition.length + body.length + 2 := by
  simp only [Block.loop, List.length_append, List.length_cons, List.length_nil]
  omega

/-- A loop is left as soon as its condition fails. -/
theorem does_loop_of_stops {condition body : Block}
    (short : condition.length + body.length < 0x10000)
    (stops : Does p site condition v { v with operands := .bool false :: v.operands }) :
    Does p site (Block.loop condition body) v v := by
  intro s fits holds
  have ends := holds.end_le (by rw [length_loop]; exact Nat.succ_pos _)
  obtain ⟨counts, made, reached⟩ := stops s fits holds.left.left.left
  have exits := holds.left.left.right.head
  rw [length_loop] at ends ⊢
  refine ⟨_, ?_,
    reached.trans (reaches_of_jump (s := s.moved _ counts) exits rfl ?_ ?_ ends)⟩
  · exact made
  · simp only [Surroundings.moved]
    omega
  · omega

/-- After a round, the loop starts again. -/
theorem does_loop_of_goes {condition body : Block}
    (short : condition.length + body.length < 0x10000)
    (goes : Does p site condition v { v with operands := .bool true :: v.operands })
    (works : Does p site body v w made)
    (again : Does p site (Block.loop condition body) w x more) :
    Does p site (Block.loop condition body) v x (made + more) := by
  intro s fits holds
  have ends := holds.end_le (by rw [length_loop]; exact Nat.succ_pos _)
  rw [length_loop] at ends
  have passes : Does p site [.make (.jump (.when false)) (body.length + 2)]
      { v with operands := .bool true :: v.operands } v := does_passJump Bool.noConfusion rfl
  obtain ⟨counts, early, reached⟩ := ((goes.append passes).append works) s fits holds.left
  let finish := s.frame.pc + List.length (condition ++
    [Instruction.make (.jump (.when false)) (body.length + 2)] ++ body)
  let start := s.moved s.frame.pc ((s.moved finish counts).counted 1).counts
  have back : Reaches p ((site.core w).plug (s.moved finish counts))
      ((site.core w).plug start) := by
    refine reaches_of_jump_always (s := s.moved finish counts) holds.right.head ?_ ?_ ?_
    · simp only [Surroundings.moved, finish, List.length_append, List.length_cons,
        List.length_nil]
      omega
    · omega
    · exact Nat.le_trans (Nat.le_add_right _ _) ends
  obtain ⟨later, late, others⟩ := again start (fits.moved _ _) holds
  refine ⟨later, ?_, reached.trans (back.trans others)⟩
  have same : start.counts.calls = counts.calls := rfl
  rw [late, same, early, Nat.add_assoc]

/-- A loop whose condition fails after a number of rounds, each of which makes the same number of
calls. -/
theorem does_loop_of_calls {condition body : Block} {rounds each : Nat} {scene : Nat → Scene}
    (short : condition.length + body.length < 0x10000)
    (goes : ∀ k < rounds, Does p site condition (scene k)
      { scene k with operands := .bool true :: (scene k).operands })
    (stops : Does p site condition (scene rounds)
      { scene rounds with operands := .bool false :: (scene rounds).operands })
    (works : ∀ k < rounds, Does p site body (scene k) (scene (k + 1)) each) :
    Does p site (Block.loop condition body) (scene 0) (scene rounds) (rounds * each) := by
  -- The induction is on the rounds that are left, from the start of any of them.
  have from_round (left k : Nat) (total : k + left = rounds) :
      Does p site (Block.loop condition body) (scene k) (scene rounds) (left * each) := by
    induction left generalizing k with
    | zero =>
      obtain rfl : k = rounds := total
      rw [Nat.zero_mul]
      exact does_loop_of_stops short stops
    | succ left ih =>
      rw [Nat.succ_mul, Nat.add_comm]
      exact does_loop_of_goes short (goes k (by omega)) (works k (by omega))
        (ih (k + 1) (by omega))
  exact from_round rounds 0 (Nat.zero_add rounds)

/-- A loop whose condition holds so many times does its body so many times, and then its condition
once more. The scenes say what the machine looks like at the start of each round. -/
theorem does_loop {condition body : Block} {rounds : Nat} {scene : Nat → Scene}
    (short : condition.length + body.length < 0x10000)
    (goes : ∀ k < rounds, Does p site condition (scene k)
      { scene k with operands := .bool true :: (scene k).operands })
    (stops : Does p site condition (scene rounds)
      { scene rounds with operands := .bool false :: (scene rounds).operands })
    (works : ∀ k < rounds, Does p site body (scene k) (scene (k + 1))) :
    Does p site (Block.loop condition body) (scene 0) (scene rounds) :=
  does_loop_of_calls short goes stops works

/-- A loop that faults in its first round. -/
theorem fails_loop {condition body : Block} {fault : Fault}
    (goes : Does p site condition v { v with operands := .bool true :: v.operands })
    (fails : Fails p site body v fault) : Fails p site (Block.loop condition body) v fault := by
  have passes : Does p site [.make (.jump (.when false)) (body.length + 2)]
      { v with operands := .bool true :: v.operands } v :=
    does_passJump Bool.noConfusion rfl
  exact ((goes.append passes).fails rfl fails).followed _

end Jumps

section Calls

variable {value argument : Value} {operands slots : List Value} {heap after : Heap}
  {output : Array String} {i : Instruction}

/-- Leaving a call that has no operands left gives back what its slots hold. -/
theorem leave_scene {s : Surroundings} (fits : site.Fits s) (operands : v.operands = [])
    (released : Heap.releaseEach v.slots v.heap = .ok () heap) (answer : Option Value) :
    leave answer ((site.core v).plug s) =
      handOver { s.frame with locals := ⟨v.slots.toArray⟩ } answer
        ⟨{}, heap, ⟨site.below, site.below.size, 65536⟩, s.callers, v.output, s.counts⟩ := by
  let frame : Frame := { s.frame with locals := ⟨v.slots.toArray⟩ }
  let stack : OperandStack := ⟨site.below, site.below.size, 65536⟩
  have base : frame.base = site.below.size := fits.base
  have slots : Heap.releaseEach frame.locals.slots.toList v.heap = .ok () heap := released
  have nothing : stack.above frame.base = [] := by
    rw [OperandStack.above_eq, base, ← Array.length_toList, List.drop_length, List.reverse_nil]
  have others : Heap.releaseEach (stack.above frame.base) heap = .ok () heap := by
    rw [nothing]
    rfl
  have kept : below stack frame = stack := by
    simp only [below, base, stack, Nat.min_self, Array.shrink_eq_take, Array.take_eq_extract,
      Array.extract_size]
  have left : leave answer ⟨{}, v.heap, stack, s.callers.push frame, v.output, s.counts⟩ =
      handOver frame answer ⟨{}, heap, below stack frame, s.callers, v.output, s.counts⟩ :=
    leave_of_released slots others answer
  rw [kept] at left
  simp only [Site.core, Core.plug, operands, Site.entries_nil]
  exact left

/-- The caller of a frame goes on with the value that it has been handed. -/
theorem handOver_push {limits : Limits} {stack : OperandStack} {frame caller : Frame}
    {callers : CallStack} {counts : ExecutionCounts} {address : Nat}
    (returns : frame.returnAddress = some address) (room : stack.entries.size < stack.limit) :
    handOver frame (some value) ⟨limits, heap, stack, callers.push caller, output, counts⟩ =
      .ok .running (Core.plug ⟨limits, heap, ⟨stack.entries.push value, caller.base, stack.limit⟩,
        caller.locals, output⟩ ⟨{ caller with pc := address }, callers, counts⟩) := by
  let resumed : Core := ⟨limits, heap, stack.setBase caller.base, caller.locals, output⟩
  let around : Surroundings := ⟨{ caller with pc := address }, callers, counts⟩
  have goes : resumeCaller frame ⟨limits, heap, stack, callers.push caller, output, counts⟩ =
      .ok true (resumed.plug around) := by
    simp only [resumeCaller, CallStack.pop?_push, returns]
    rfl
  rw [handOver, bind_of_ok goes, if_pos rfl]
  dsimp only
  rw [bind_of_ok (push_plug (c := resumed) room around)]
  rfl

/-- Returning the only operand. -/
theorem returns_ret (opcode : i.opcode = .ret)
    (released : Heap.releaseEach slots heap = .ok () after) :
    Returns p site [i] ⟨slots, [value], heap, output⟩ value after := by
  intro s caller callers address fits holds called returns
  let left : Scene := ⟨slots, [], heap, output⟩
  have performed : perform p i s.frame.pc s.frame.function.code.instructionCount
      ((site.core ⟨slots, [value], heap, output⟩).plug (s.counted 1)) =
        .ok (.leave (some value)) ((site.core left).plug (s.counted 1)) := by
    rw [perform, opcode]
    dsimp only
    rw [bind_of_ok (pop_plug rfl (Nat.le_refl _) (s.counted 1)), pure_apply]
    rfl
  let frame : Frame := { s.frame with locals := ⟨slots.toArray⟩ }
  let given : Machine := ⟨{}, after, ⟨site.below, site.below.size, 65536⟩, callers.push caller,
    output, (s.counted 1).counts⟩
  have leaves : leave (some value) ((site.core left).plug (s.counted 1)) =
      handOver frame (some value) given := by
    simp only [given, ← called]
    exact leave_scene (v := left) (fits.counted 1) rfl released (some value)
  have none_left : ([] : List Value).length < 1000 := by simp
  have room : site.below.size < 65536 := site.room none_left
  have resumes : handOver frame (some value) given = .ok .running _ := handOver_push returns room
  refine ⟨(s.counted 1).counts, rfl, .of_step ?_⟩
  rw [step, advance_eq holds.head, bind_of_ok performed]
  simp only [proceed]
  rw [leaves, resumes]

section Entering

variable {f : Function} {index : Nat} {rest : List Value} (few : rest.length ≤ 4)
  (deeper : site.depth + 1 < 1024)

/-- The surroundings of a function that has been called with one argument. -/
def called (s : Surroundings) (f : Function) (index : Nat) (slots : List Value) (base : Nat) :
    Surroundings where
  frame := .make f index (some (s.frame.pc + 1)) base
  callers := s.callers.push { s.frame with locals := ⟨slots.toArray⟩ }
  counts := { (s.counted 1).counts with
    calls := s.counts.calls + 1
    deepest := max s.counts.deepest (s.callers.depth + 1 + 1) }

/-- A call comes to the start of the function, with the argument in its first slot. -/
theorem reaches_called {s : Surroundings} (fits : site.Fits s)
    (here : s.frame.function.code.Has s.frame.pc i) (opcode : i.opcode = .call)
    (names : i.index = index) (found : p.functions[index]? = some f) (arity : f.arity = 1) :
    Reaches p ((site.core ⟨slots, argument :: rest, heap, output⟩).plug s)
      (((site.callee rest few deeper).core
        ⟨argument :: List.replicate (f.localCount - 1) .null, [], heap, output⟩).plug
          (called s f index slots (site.entries rest).size)) := by
  let m : Machine := (site.core ⟨slots, argument :: rest, heap, output⟩).plug (s.counted 1)
  have room : m.depth < m.limits.callDepth := by
    have depth : m.depth = site.depth + 1 := congrArg Nat.succ fits.depth
    rw [depth]
    exact deeper
  have entries : m.stack.entries = site.entries rest ++ #[argument] := rfl
  have enters := enter_eq room entries (site.visible rest) arity.symm index (some (s.frame.pc + 1))
  have version : Profiler.none.version index f () = f := rfl
  have slotted : #[argument] ++ Array.replicate (f.localCount - 1) Value.null =
      (argument :: List.replicate (f.localCount - 1) Value.null).toArray := by
    simp
  apply Reaches.of_step
  rw [step, advance_call here opcode names found]
  dsimp only
  rw [version, enters]
  simp only [entered, Site.core, Site.callee, called, List.size_toArray, List.length_cons,
    List.length_nil, slotted]
  rfl

/-- The frame of a function that has been called fits where the call takes place. -/
theorem callee_fits {s : Surroundings} (fits : site.Fits s) (f : Function) (index : Nat)
    (slots : List Value) :
    (site.callee rest few deeper).Fits (called s f index slots (site.entries rest).size) :=
  ⟨rfl, congrArg Nat.succ fits.depth⟩

/-- A call does what the body of the function returns, and is one call more. -/
theorem does_call (opcode : i.opcode = .call) (names : i.index = index)
    (found : p.functions[index]? = some f) (arity : f.arity = 1) (body : f.code.Holds 0 block)
    (returns : Returns p (site.callee rest few deeper) block
      ⟨argument :: List.replicate (f.localCount - 1) .null, [], heap, output⟩ value after made) :
    Does p site [i] ⟨slots, argument :: rest, heap, output⟩ ⟨slots, value :: rest, after, output⟩
      (made + 1) := by
  intro s fits holds
  obtain ⟨counts, inside, returned⟩ := returns (called s f index slots (site.entries rest).size)
    _ _ _ (callee_fits few deeper fits f index slots) body rfl rfl
  have back : (site.core ⟨slots, value :: rest, after, output⟩).plug
      (s.moved (s.frame.pc + 1) counts) =
      Core.plug ⟨{}, after, ⟨(site.entries rest).push value, s.frame.base, 65536⟩, ⟨slots.toArray⟩,
        output⟩
        ⟨{ s.frame with pc := s.frame.pc + 1, locals := ⟨slots.toArray⟩ }, s.callers, counts⟩ := by
    simp only [Site.core, ← fits.base, Site.entries_cons]
    rfl
  have entered : (called s f index slots (site.entries rest).size).counts.calls =
      s.counts.calls + 1 := rfl
  refine ⟨counts, by rw [inside, entered, Nat.add_assoc, Nat.add_comm 1],
    (reaches_called few deeper fits holds.head opcode names found arity).trans ?_⟩
  rw [List.length_singleton, back]
  exact returned

/-- A call faults where the body of the function does. -/
theorem fails_call {fault : Fault} (opcode : i.opcode = .call) (names : i.index = index)
    (found : p.functions[index]? = some f) (arity : f.arity = 1) (body : f.code.Holds 0 block)
    (fails : Fails p (site.callee rest few deeper) block
      ⟨argument :: List.replicate (f.localCount - 1) .null, [], heap, output⟩ fault) :
    Fails p site [i] ⟨slots, argument :: rest, heap, output⟩ fault := by
  intro s fits holds
  exact (reaches_called few deeper fits holds.head opcode names found arity).faults
    (fails _ (callee_fits few deeper fits f index slots) body)

omit few deeper in
/-- One call too many. -/
theorem fails_deep (opcode : i.opcode = .call) (names : i.index = index)
    (found : p.functions[index]? = some f) (deepest : site.depth + 1 = 1024) :
    Fails p site [i] v (.callStackOverflow 1024) := by
  intro s fits holds
  let m : Machine := (site.core v).plug (s.counted 1)
  have deep : m.limits.callDepth ≤ m.depth := by
    have depth : m.depth = site.depth + 1 := congrArg Nat.succ fits.depth
    rw [depth, deepest]
    exact Nat.le_refl 1024
  have version : Profiler.none.version index f () = f := rfl
  have stepped : step p Profiler.none () ((site.core v).plug s) =
      .faulted (.callStackOverflow 1024) () m := by
    rw [step, advance_call holds.head opcode names found]
    dsimp only
    rw [version, enter_deep deep]
    rfl
  exact .of_step stepped

end Entering

end Calls

section Arrays

variable {i : Instruction} {id : ArrayId} {rest : List Value} {slots : List Value}
  {heap between after : Heap} {output : Array String} {n : Int64} {value : Value}

/-- An array on top of the operands is taken off them. -/
theorem popArray_plug {c : Core} {below : Array Value}
    (entries : c.stack.entries = below.push (.array id)) (visible : c.stack.base ≤ below.size)
    (s : Surroundings) : popArray (c.plug s) = .ok id ((c.withEntries below).plug s) := by
  have read : Value.asArray? (.array id) = some id := rfl
  exact popAs_plug entries visible read s

/-- An action on the heap leaves the rest of a core alone. -/
theorem onHeap_plug {α : Type} {action : Action Heap α} {answer : α} {c : Core} {heap : Heap}
    (ran : action c.heap = .ok answer heap) (s : Surroundings) :
    onHeap action (c.plug s) = .ok answer (Core.plug { c with heap } s) := by
  simp only [onHeap, Core.plug, ran]

/-- An action that succeeds has no fault to hold back. -/
theorem attempt_of_ok {α : Type} {action : Action Machine α} {answer : α} {m after : Machine}
    (ran : action m = .ok answer after) : attempt action m = .ok (.ok answer) after := by
  simp only [attempt, ran]

/-- An answer is given at once. -/
theorem settle_of_ok {α : Type} (answer : α) (m : Machine) :
    settle (.ok answer) m = .ok answer m := rfl

/-- A value is pushed on fewer than a thousand operands of a call. -/
theorem push_scene (few : rest.length < 1000) (value : Value) (s : Surroundings) :
    push value ((site.core ⟨slots, rest, heap, output⟩).plug s) =
      .ok () ((site.core ⟨slots, value :: rest, heap, output⟩).plug s) :=
  push_plug (site.room few) s

/-- The length of an array takes its place on the operands, and one reference to it ends. -/
theorem does_arrayLength {length : Nat} (opcode : i.opcode = .arrayLength)
    (counted : Heap.length id heap = .ok length heap)
    (released : Heap.releaseValue (.array id) heap = .ok () after) (few : rest.length < 1000) :
    Does p site [i] ⟨slots, .array id :: rest, heap, output⟩
      ⟨slots, .int (Int64.ofNat length) :: rest, after, output⟩ := by
  refine does_of_action (fun _ _ => by rw [perform, opcode]) fun s => ?_
  let popped := site.core ⟨slots, rest, heap, output⟩
  let left := site.core ⟨slots, rest, after, output⟩
  have pops : popArray ((site.core ⟨slots, .array id :: rest, heap, output⟩).plug s) =
      .ok id (popped.plug s) := popArray_plug rfl (site.visible rest) s
  have counts : onHeap (Heap.length id) (popped.plug s) = .ok length (popped.plug s) :=
    onHeap_plug counted s
  have gives : release (.array id) (popped.plug s) = .ok () (left.plug s) := onHeap_plug released s
  rw [pushLength, bind_of_ok pops, bind_of_ok (attempt_of_ok counts), bind_of_ok gives,
    bind_of_ok (settle_of_ok length _)]
  exact push_scene few _ s

/-- An element takes the place of the array and the index, and one reference to the array ends. -/
theorem does_arrayLoad (opcode : i.opcode = .arrayLoad)
    (loaded : Heap.load id n heap = .ok value heap)
    (released : Heap.releaseValue (.array id) heap = .ok () after) (few : rest.length < 1000) :
    Does p site [i] ⟨slots, .int n :: .array id :: rest, heap, output⟩
      ⟨slots, value :: rest, after, output⟩ := by
  refine does_of_action (fun _ _ => by rw [perform, opcode]) fun s => ?_
  let indexed := site.core ⟨slots, .array id :: rest, heap, output⟩
  let popped := site.core ⟨slots, rest, heap, output⟩
  let left := site.core ⟨slots, rest, after, output⟩
  have pops_index : popInt ((site.core ⟨slots, .int n :: .array id :: rest, heap, output⟩).plug s) =
      .ok n (indexed.plug s) := popInt_plug rfl (site.visible _) s
  have pops : popArray (indexed.plug s) = .ok id (popped.plug s) :=
    popArray_plug rfl (site.visible rest) s
  have loads : onHeap (Heap.load id n) (popped.plug s) = .ok value (popped.plug s) :=
    onHeap_plug loaded s
  have gives : release (.array id) (popped.plug s) = .ok () (left.plug s) := onHeap_plug released s
  rw [arrayLoad, bind_of_ok pops_index, bind_of_ok pops, bind_of_ok (attempt_of_ok loads),
    bind_of_ok gives, bind_of_ok (settle_of_ok value _)]
  exact push_scene few _ s

/-- The value, the index and the array are taken off the operands, and the array has another
element. -/
theorem does_arrayStore (opcode : i.opcode = .arrayStore)
    (stored : Heap.store id n value heap = .ok () between)
    (released : Heap.releaseValue (.array id) between = .ok () after) :
    Does p site [i] ⟨slots, value :: .int n :: .array id :: rest, heap, output⟩
      ⟨slots, rest, after, output⟩ := by
  refine does_of_action (fun _ _ => by rw [perform, opcode]) fun s => ?_
  let taken := site.core ⟨slots, .int n :: .array id :: rest, heap, output⟩
  let indexed := site.core ⟨slots, .array id :: rest, heap, output⟩
  let popped := site.core ⟨slots, rest, heap, output⟩
  let written := site.core ⟨slots, rest, between, output⟩
  let left := site.core ⟨slots, rest, after, output⟩
  have pops_value :
      pop ((site.core ⟨slots, value :: .int n :: .array id :: rest, heap, output⟩).plug s) =
        .ok value (taken.plug s) := pop_plug rfl (site.visible _) s
  have pops_index : popInt (taken.plug s) = .ok n (indexed.plug s) :=
    popInt_plug rfl (site.visible _) s
  have pops : popArray (indexed.plug s) = .ok id (popped.plug s) :=
    popArray_plug rfl (site.visible rest) s
  have stores : onHeap (Heap.store id n value) (popped.plug s) = .ok () (written.plug s) :=
    onHeap_plug stored s
  have gives : release (.array id) (written.plug s) = .ok () (left.plug s) := onHeap_plug released s
  have element : storeElement value (taken.plug s) = .ok () (left.plug s) := by
    rw [storeElement, bind_of_ok pops_index, bind_of_ok pops, bind_of_ok (attempt_of_ok stores),
      bind_of_ok gives]
    rfl
  rw [arrayStore, bind_of_ok pops_value, bind_of_ok (attempt_of_ok element)]
  rfl

/-- Creating an array of zeros that is not too long. -/
theorem does_newArray {type : ElementType} {length : Nat} (opcode : i.opcode = .newArray)
    (tagged : i.index = type.tag) (fits : arrayLength 0x1000000 n = .ok length)
    (allocated : heap.allocate (.zeros type length) = (id, after)) (few : rest.length < 1000) :
    Does p site [i] ⟨slots, .int n :: rest, heap, output⟩
      ⟨slots, .array id :: rest, after, output⟩ := by
  refine does_of_action (fun _ _ => by rw [perform, opcode]) fun s => ?_
  let popped := site.core ⟨slots, rest, heap, output⟩
  have pops : popInt ((site.core ⟨slots, .int n :: rest, heap, output⟩).plug s) =
      .ok n (popped.plug s) := popInt_plug rfl (site.visible _) s
  have asked : Action.ofExcept (fun m : Machine => arrayLength m.limits.arrayLength n)
      (popped.plug s) = .ok length (popped.plug s) := by
    have allowed : arrayLength (popped.plug s).limits.arrayLength n = .ok length := fits
    simp only [Action.ofExcept, allowed]
  have pushes : push (.array id) (Core.plug { popped with heap := after } s) =
      .ok () ((site.core ⟨slots, .array id :: rest, after, output⟩).plug s) :=
    push_scene few (.array id) s
  rw [newArray, tagged, ElementType.ofTag?_tag]
  dsimp only
  rw [bind_of_ok pops, bind_of_ok asked]
  refine (bind_of_ok (onHeap_plug ?_ s) _).trans pushes
  simp only [popped, Site.core, allocated]

/-- An array that would be too long, or of a negative length. -/
theorem fails_newArray {type : ElementType} {fault : Fault} (opcode : i.opcode = .newArray)
    (tagged : i.index = type.tag) (refused : arrayLength 0x1000000 n = .error fault) :
    Fails p site [i] ⟨slots, .int n :: rest, heap, output⟩ fault := by
  refine fails_of_perform fun s address count => ⟨site.core ⟨slots, rest, heap, output⟩, ?_, rfl⟩
  let popped := site.core ⟨slots, rest, heap, output⟩
  have pops : popInt ((site.core ⟨slots, .int n :: rest, heap, output⟩).plug s) =
      .ok n (popped.plug s) := popInt_plug rfl (site.visible _) s
  have asked : Action.ofExcept (fun m : Machine => arrayLength m.limits.arrayLength n)
      (popped.plug s) = .error fault (popped.plug s) := by
    have denied : arrayLength (popped.plug s).limits.arrayLength n = .error fault := refused
    simp only [Action.ofExcept, denied]
  have performed : newArray i.index ((site.core ⟨slots, .int n :: rest, heap, output⟩).plug s) =
      .error fault (popped.plug s) := by
    rw [newArray, tagged, ElementType.ofTag?_tag]
    dsimp only
    rw [bind_of_ok pops, bind_of_error asked]
  rw [perform, opcode]
  dsimp only
  rw [bind_of_error performed]

end Arrays

section Finishing

variable {i : Instruction} {rest : List Value} {slots : List Value} {heap after : Heap}
  {output : Array String} {n : Int64}

/-- Printing an integer. -/
theorem does_print (opcode : i.opcode = .print) :
    Does p site [i] ⟨slots, .int n :: rest, heap, output⟩
      ⟨slots, rest, heap, output.push (toString n.toInt)⟩ := by
  refine does_of_action (fun _ _ => by rw [perform, opcode]) fun s => ?_
  let popped := site.core ⟨slots, rest, heap, output⟩
  have pops : pop ((site.core ⟨slots, .int n :: rest, heap, output⟩).plug s) =
      .ok (.int n) (popped.plug s) := pop_plug rfl (site.visible _) s
  have read : onHeap (Heap.textOf (.int n)) (popped.plug s) =
      .ok (toString n.toInt) (popped.plug s) := onHeap_plug rfl s
  have gives : release (.int n) (popped.plug s) = .ok () (popped.plug s) := onHeap_plug rfl s
  rw [print, bind_of_ok pops, bind_of_ok (attempt_of_ok read), bind_of_ok gives,
    bind_of_ok (settle_of_ok _ _)]
  rfl

/-- Returning from the outermost call. -/
theorem finishes_retVoid (opcode : i.opcode = .retVoid)
    (released : Heap.releaseEach slots heap = .ok () after) :
    Finishes p [i] ⟨slots, [], heap, output⟩ after output := by
  intro s fits holds alone
  let m : Machine := (Site.outermost.core ⟨slots, [], heap, output⟩).plug (s.counted 1)
  let final : Machine := ⟨{}, after, ⟨#[], 0, 65536⟩, .empty, output, (s.counted 1).counts⟩
  have performed : perform p i s.frame.pc s.frame.function.code.instructionCount m =
      .ok (.leave none) m := by
    rw [perform, opcode]
    rfl
  have leaves := leave_scene (v := ⟨slots, [], heap, output⟩) (fits.counted 1) rfl released none
  have ends : leave none m = .ok (.finished none) final := by
    have empty : (s.counted 1).callers = .empty := alone
    rw [empty] at leaves
    exact leaves
  refine ⟨1, final, ?_, rfl, rfl, rfl⟩
  rw [run_one, step, advance_eq holds.head, bind_of_ok performed]
  simp only [proceed]
  rw [ends]

end Finishing

end Machine

end HotPath
