import HotPath.Proofs.Store.Changes
import HotPath.Proofs.Store.Numbering
import Mathlib.Data.List.Induction

/-!
# The chronicle of a heap

An `Operation` is anything that can be asked of a heap, with any arguments, also with ids that are
stale or were never given out. A `Chronicle` is a heap with a log of what the operations on it have
done to references: an id was given out, a reference was added, a reference was given back. The
log is kept from outside, from the operations and their answers alone (`Operation.deed?`), so that
what it says about an id can be compared with what the heap knows. What ids keep of the number
of a slot shows in the log only: the heap is the same (`Chronicle.heap_after`).

`Move` lists all that one operation can do to a heap together with what the log says about it.
-/

namespace HotPath

namespace Heap

/-- What can be asked of a heap. -/
inductive Operation where
  | allocate (type : ElementType) (size : Nat)
  | allocateData (contents : Elements)
  | importHost (value : HostValue)
  | exportHost (value : Value)
  | retain (id : ArrayId)
  | release (id : ArrayId)
  | retainValue (value : Value)
  | releaseValue (value : Value)
  | isLive (id : ArrayId)
  | references (id : ArrayId)
  | elementType (id : ArrayId)
  | length (id : ArrayId)
  | load (id : ArrayId) (index : Int64)
  | store (id : ArrayId) (index : Int64) (value : Value)
  | toHost (id : ArrayId)
deriving DecidableEq, Repr

/-- What an operation answers. -/
inductive Answer where
  | done
  | id (id : ArrayId)
  | flag (holds : Bool)
  | count (n : Nat)
  | type (type : ElementType)
  | value (value : Value)
  | host (value : Option HostValue)
deriving DecidableEq, Repr

/-- Something that happened to the references to an array. -/
inductive Deed where
  /-- The id of a new array was given out, together with the first reference. -/
  | issued (id : ArrayId)
  | retained (id : ArrayId)
  | released (id : ArrayId)
deriving DecidableEq, Repr

namespace Operation

/-- Carry an operation out. -/
def run [Numbering] : Operation → Action Heap Answer
  | .allocate type size => fun h =>
    .ok (.id (h.allocate (.zeros type size)).1) (h.allocate (.zeros type size)).2
  | .allocateData contents => fun h => .ok (.id (h.allocate contents).1) (h.allocate contents).2
  | .importHost value => fun h => .ok (.value (h.importHost value).1) (h.importHost value).2
  | .exportHost value => do return .host (← Heap.exportHost value)
  | .retain id => do
    Heap.retain id
    return .done
  | .release id => do return .flag (← Heap.release id)
  | .retainValue value => do
    Heap.retainValue value
    return .done
  | .releaseValue value => do
    Heap.releaseValue value
    return .done
  | .isLive id => fun h => .ok (.flag (h.isLive id)) h
  | .references id => do return .count (← Heap.references id)
  | .elementType id => do return .type (← Heap.elementType id)
  | .length id => do return .count (← Heap.length id)
  | .load id index => do return .value (← Heap.load id index)
  | .store id index value => do
    Heap.store id index value
    return .done
  | .toHost id => do return .host (some (← Heap.toHost id))

/-- What an operation that gave this answer did to references. -/
def deed? : Operation → Answer → Option Deed
  | .allocate _ _, .id id => some (.issued id)
  | .allocateData _, .id id => some (.issued id)
  | .importHost _, .value (.array id) => some (.issued id)
  | .exportHost (.array id), _ => some (.released id)
  | .retain id, _ => some (.retained id)
  | .release id, _ => some (.released id)
  | .retainValue (.array id), _ => some (.retained id)
  | .releaseValue (.array id), _ => some (.released id)
  | _, _ => none

end Operation

/-- What has been done on a heap, the latest in front. -/
abbrev Log := List Deed

namespace Log

/-- What has been done since an id was given out, the last time if that was done twice. -/
def since (log : Log) (id : ArrayId) : Log := log.takeWhile (· ≠ .issued id)

/-- The references that an id still owes: the one it was given out with, one more for every time
it has been retained since, one less for every time it has been released. -/
def due (log : Log) (id : ArrayId) : Int :=
  1 + (log.since id).count (.retained id) - (log.since id).count (.released id)

/-- How often the last reference to an array in a slot has been given back. -/
def frees : Log → Nat → Nat
  | [], _ => 0
  | .released id :: earlier, index =>
    frees earlier index + if id.index = index ∧ due earlier id = 1 then 1 else 0
  | _ :: earlier, index => frees earlier index

/-- The ids that have been given out. -/
def issued (log : Log) : List ArrayId :=
  log.filterMap fun
    | .issued id => some id
    | _ => none

section Due

variable (log : Log) {id other : ArrayId}

/-- An id that is given out owes one reference. -/
theorem due_issued (id : ArrayId) : due (.issued id :: log) id = 1 := by
  simp [due, since]

/-- Another id owes what it owed when an id is given out. -/
theorem due_issued_of_ne (different : other ≠ id) : due (.issued other :: log) id = log.due id := by
  simp [due, since, different]

/-- An id that is retained owes one reference more. -/
theorem due_retained (id : ArrayId) : due (.retained id :: log) id = log.due id + 1 := by
  simp [due, since]
  omega

/-- Another id owes what it owed when an id is retained. -/
theorem due_retained_of_ne (different : other ≠ id) :
    due (.retained other :: log) id = log.due id := by
  simp [due, since, different]

/-- An id that is released owes one reference less. -/
theorem due_released (id : ArrayId) : due (.released id :: log) id = log.due id - 1 := by
  simp [due, since]
  omega

/-- Another id owes what it owed when an id is released. -/
theorem due_released_of_ne (different : other ≠ id) :
    due (.released other :: log) id = log.due id := by
  simp [due, since, different]

end Due

end Log

/-- A heap, and what has been done on it. -/
structure Chronicle where
  heap : Heap
  log : Log
deriving DecidableEq, Repr

namespace Chronicle

/-- The chronicle of an empty heap on which nothing has been done. -/
def blank : Chronicle := ⟨.empty, []⟩

/-- Carry an operation out, and write down what it did if it succeeded. -/
def next [Numbering] (c : Chronicle) (operation : Operation) : Chronicle :=
  match operation.run c.heap with
  | .ok answer heap => ⟨heap, (operation.deed? answer).toList ++ c.log⟩
  | .error _ heap => ⟨heap, c.log⟩

/-- Carry out operations one after another. -/
def after [Numbering] (c : Chronicle) (operations : List Operation) : Chronicle :=
  operations.foldl next c

/-- Operations that are done after others are done on what those have made. -/
theorem after_append [Numbering] (c : Chronicle) (operations later : List Operation) :
    c.after (operations ++ later) = (c.after operations).after later :=
  List.foldl_append

/-- The last operation is done on what the others have made. -/
theorem after_concat [Numbering] (c : Chronicle) (operations : List Operation)
    (operation : Operation) :
    c.after (operations ++ [operation]) = (c.after operations).next operation := by
  simp [after]

/-- The heap goes on as the operation has it. -/
theorem heap_next [Numbering] (c : Chronicle) (operation : Operation) :
    (c.next operation).heap = operation.run.after c.heap := by
  unfold next Action.after
  cases operation.run c.heap <;> rfl

/-- What an operation does to a heap does not depend on what ids keep. -/
theorem after_run [Numbering] (operation : Operation) (h : Heap) :
    operation.run.after h = (@Operation.run .whole operation).after h := by
  cases operation with
  | allocate type size => exact h.allocate_heap _
  | allocateData contents => exact h.allocate_heap contents
  | importHost host => exact h.importHost_heap host
  | _ => rfl

/-- Nor does what any number of them do. -/
theorem heap_after [Numbering] (c : Chronicle) (operations : List Operation) :
    (c.after operations).heap = (@after .whole c operations).heap := by
  induction operations using List.reverseRecOn with
  | nil => rfl
  | append_singleton operations operation ih =>
    rw [after_concat, @after_concat .whole, heap_next, @heap_next .whole, ih, after_run]

end Chronicle

namespace Narrow

/-- Carry out operations on a heap whose ids have 32 bits for the number of a slot. -/
abbrev after := @Chronicle.after .low32

end Narrow

/-- What one operation can do to a heap, and what is written down of it. -/
inductive Move (h : Heap) : Option Deed → Heap → Prop where
  | idle : Move h none h
  | issued (contents : Elements) :
      Move h (some (.issued (h.allocate contents).1)) (h.allocate contents).2
  | retained {id : ArrayId} {cell : Cell} (found : h.find? id = some cell) :
      Move h (some (.retained id))
        (h.modifyCell id.index fun cell => { cell with references := cell.references + 1 })
  /-- A reference is given back, and there are others. -/
  | shared {id : ArrayId} {cell : Cell} {references : Nat} (found : h.find? id = some cell)
      (count : cell.references = references + 2) :
      Move h (some (.released id))
        (h.modifyCell id.index fun cell => { cell with references := references + 1 })
  /-- The last reference is given back. -/
  | freed {id : ArrayId} {cell : Cell} (found : h.find? id = some cell)
      (last : cell.references = 1) : Move h (some (.released id)) (h.vacate id.index)
  | stored {id : ArrayId} {cell : Cell} {index : Int64} {value : Value} {place : Nat}
      (found : h.find? id = some cell) (accepted : storePlace cell.contents index value = .ok place) :
      Move h none
        (h.modifyCell id.index fun cell => { cell with contents := cell.contents.set place value })

/-- An action faults and leaves the heap alone, or it makes one move. -/
def Moves {α : Type} (action : Action Heap α) (deed? : α → Option Deed) : Prop :=
  ∀ h, (∃ fault, action h = .error fault h) ∨
    ∃ answer after, action h = .ok answer after ∧ h.Move (deed? answer) after

section Moves

variable {α β : Type}

/-- What is made of an answer does not matter to what is written down. -/
theorem Moves.reply {action : Action Heap α} {deed? : α → Option Deed} {written? : β → Option Deed}
    (moves : Moves action deed?) (reply : α → β)
    (same : ∀ answer, written? (reply answer) = deed? answer) :
    Moves (do return reply (← action)) written? := by
  intro h
  rcases moves h with ⟨fault, refused⟩ | ⟨answer, after, done, move⟩
  · exact .inl ⟨fault, Action.bind_of_error refused _⟩
  · refine .inr ⟨reply answer, after, Action.bind_of_ok done _, ?_⟩
    rwa [same]

/-- Forgetting the answer leaves what has been done as it is. -/
theorem Moves.discard {action : Action Heap α} {deed? : Option Deed}
    (moves : Moves action fun _ => deed?) : Moves (discard action) fun _ => deed? := by
  intro h
  rw [Action.discard_apply]
  rcases moves h with ⟨fault, refused⟩ | ⟨answer, after, done, move⟩
  · rw [refused]
    exact .inl ⟨fault, rfl⟩
  · rw [done]
    exact .inr ⟨(), after, rfl, move⟩

/-- Answering does nothing. -/
theorem pure_moves (answer : α) : Moves (pure answer) fun _ => none :=
  fun h => .inr ⟨answer, h, rfl, .idle⟩

/-- Looking into an array does nothing to references. -/
theorem inspect_moves (id : ArrayId) (read : Cell → Except Fault α) :
    Moves (inspect id read) fun _ => none := by
  intro h
  cases found : h.find? id with
  | none => exact .inl ⟨_, inspect_of_absent found read⟩
  | some cell =>
    rw [inspect_of_find? found]
    unfold Action.settle Action.ofExcept
    cases read cell with
    | error fault => exact .inl ⟨fault, rfl⟩
    | ok answer => exact .inr ⟨answer, h, rfl, .idle⟩

/-- A new array is an id that is given out. -/
theorem allocate_moves (contents : Elements) :
    Moves (fun h => .ok (h.allocate contents).1 (h.allocate contents).2) fun id =>
      some (.issued id) :=
  fun _ => .inr ⟨_, _, rfl, .issued contents⟩

/-- Taking a reference is one retained, or nothing if it fails. -/
theorem retain_moves (id : ArrayId) : Moves (retain id) fun _ => some (.retained id) := by
  intro h
  rcases h.retain_cases id with refused | ⟨cell, found, retained⟩
  · exact .inl refused
  · exact .inr ⟨(), _, retained, .retained found⟩

/-- Giving a reference back is one released, or nothing if it fails. -/
theorem release_moves (id : ArrayId) : Moves (release id) fun _ => some (.released id) := by
  intro h
  rcases h.release_cases id with
    refused | ⟨cell, found, last, freed⟩ | ⟨cell, references, found, count, shared⟩
  · exact .inl refused
  · exact .inr ⟨true, _, freed, .freed found last⟩
  · exact .inr ⟨false, _, shared, .shared found count⟩

/-- A store does nothing to references. -/
theorem store_moves (id : ArrayId) (index : Int64) (value : Value) :
    Moves (store id index value) fun _ => none := by
  intro h
  rcases h.store_cases id index value with refused | ⟨cell, place, found, accepted, stored⟩
  · exact .inl refused
  · exact .inr ⟨(), _, stored, .stored found accepted⟩

/-- Handing an array to the host gives back a reference to it. -/
theorem exportHost_moves (id : ArrayId) :
    Moves (exportHost (.array id)) fun _ => some (.released id) := by
  intro h
  simp only [exportHost]
  cases found : h.find? id with
  | none => exact .inl ⟨_, Action.bind_of_error (inspect_of_absent found _) _⟩
  | some cell =>
    rw [toHost, Action.bind_of_ok (inspect_of_find? found _)]
    exact (release_moves id).discard.reply (fun _ => some (HostValue.array cell.contents))
      (fun _ => rfl) h

/-- Every operation faults and leaves the heap alone, or makes the move that is written down. -/
theorem Operation.run_moves (operation : Operation) : Moves operation.run operation.deed? := by
  cases operation with
  | allocate type size => exact (allocate_moves _).reply Answer.id fun _ => rfl
  | allocateData contents => exact (allocate_moves _).reply Answer.id fun _ => rfl
  | importHost value =>
    cases value with
    | array contents =>
      exact (allocate_moves contents).reply (fun id => Answer.value (.array id)) fun _ => rfl
    | _ => exact fun h => .inr ⟨_, h, rfl, .idle⟩
  | exportHost value =>
    cases value with
    | array id => exact (exportHost_moves id).reply Answer.host fun _ => rfl
    | _ => exact (pure_moves _).reply Answer.host fun _ => rfl
  | retain id => exact (retain_moves id).reply (fun _ => Answer.done) fun _ => rfl
  | release id => exact (release_moves id).reply Answer.flag fun _ => rfl
  | retainValue value =>
    cases value with
    | array id => exact (retain_moves id).reply (fun _ => Answer.done) fun _ => rfl
    | _ => exact (pure_moves _).reply (fun _ => Answer.done) fun _ => rfl
  | releaseValue value =>
    cases value with
    | array id =>
      exact (release_moves id).discard.reply (fun _ => Answer.done) fun _ => rfl
    | _ => exact (pure_moves _).reply (fun _ => Answer.done) fun _ => rfl
  | isLive id => exact fun h => .inr ⟨_, h, rfl, .idle⟩
  | references id => exact (inspect_moves id _).reply Answer.count fun _ => rfl
  | elementType id => exact (inspect_moves id _).reply Answer.type fun _ => rfl
  | length id => exact (inspect_moves id _).reply Answer.count fun _ => rfl
  | load id index => exact (inspect_moves id _).reply Answer.value fun _ => rfl
  | store id index value =>
    exact (store_moves id index value).reply (fun _ => Answer.done) fun _ => rfl
  | toHost id =>
    exact (inspect_moves id _).reply (fun contents => Answer.host (some contents)) fun _ => rfl

/-- An operation that faults leaves the whole heap as it was. -/
theorem Operation.unchanged_of_error {operation : Operation} {h after : Heap} {fault : Fault}
    (faulted : operation.run h = .error fault after) : after = h := by
  rcases operation.run_moves h with ⟨_, refused⟩ | ⟨_, _, done, _⟩
  · rw [refused] at faulted
    cases faulted
    rfl
  · rw [done] at faulted
    cases faulted

end Moves

namespace Chronicle

/-- Whatever is asked of the heap, the chronicle goes on by one move. -/
theorem next_moves (c : Chronicle) (operation : Operation) :
    ∃ deed?, (c.next operation).log = Option.toList deed? ++ c.log ∧
      c.heap.Move deed? (c.next operation).heap := by
  unfold next
  rcases operation.run_moves c.heap with ⟨fault, refused⟩ | ⟨answer, after, done, move⟩
  · rw [refused]
    exact ⟨none, rfl, .idle⟩
  · rw [done]
    exact ⟨_, rfl, move⟩

/-- What holds at the outset and is kept by every move holds after any operations. -/
theorem after_induction (Holds : Heap → Log → Prop) (outset : Holds .empty [])
    (kept : ∀ {h log deed? after}, Holds h log → Move h deed? after →
      Holds after (Option.toList deed? ++ log))
    (operations : List Operation) :
    Holds (blank.after operations).heap (blank.after operations).log := by
  induction operations using List.reverseRecOn with
  | nil => exact outset
  | append_singleton operations operation ih =>
    rw [after_concat]
    obtain ⟨deed?, written, move⟩ := (blank.after operations).next_moves operation
    rw [written]
    exact kept ih move

end Chronicle

end Heap

end HotPath
