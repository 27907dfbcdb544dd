import HotPath.Machine.State
import HotPath.Proofs.Store.Boundary

/-!
# Teardown

When slots or operands are cleared away, every reference among them is tried, no matter what has
come of the ones before. `attempts` lists what the tries answer, each on the heap as it is by then:
an array that is held more often than it is counted is freed by one of them, and the next one fails.
`surrendered` is what they make of the heap, and `report` what is said about all of them.

`Sweeps` says that an action is such a teardown, for any contents and any heap, and
`teardown_complete` says it of the two actions there are. Unwinding a machine is one after another
of them (`Machine.heap_unwind`).
-/

namespace HotPath

namespace Action

variable {σ α : Type} {action : Action σ α} {state left : σ} {answer : Except Fault α}

/-- An action that leaves an answer and a state has that state after it. -/
theorem after_of_settle (acts : action state = settle answer left) : action.after state = left := by
  rw [after, acts]
  cases answer <;> rfl

/-- An action that leaves an answer and a state has that answer for its outcome. -/
theorem outcome_of_settle (acts : action state = settle answer left) :
    action.outcome state = answer := by
  rw [outcome, acts]
  cases answer <;> rfl

end Action

open HotPath.Action

namespace Heap

/-- Try to give a reference back. If that fails, the heap stays as it is. -/
def surrender (h : Heap) (id : ArrayId) : Heap :=
  match release id h with
  | .ok _ after => after
  | .error _ _ => h

/-- The heap when references have been tried one after another. -/
def surrendered (h : Heap) (ids : List ArrayId) : Heap := ids.foldl surrender h

/-- What the tries answer, each on the heap that the ones before it have left. -/
def attempts (h : Heap) : List ArrayId → List (Except Fault Bool)
  | [] => []
  | id :: rest => (release id).outcome h :: attempts (h.surrender id) rest

/-- The failure that an answer is, if it is one. -/
def failure? : Except Fault Bool → Option Fault
  | .ok _ => none
  | .error fault => some fault

/-- What is said about some answers: the first failure, if there is one. -/
def report (answers : List (Except Fault Bool)) : Except Fault Unit :=
  match answers.findSome? failure? with
  | some fault => .error fault
  | none => .ok ()

section Reports

variable {answers : List (Except Fault Bool)} {answer : Except Fault Bool} {fault : Fault}

/-- An answer has no failure if it is one of success. -/
theorem failure?_eq_none_iff : failure? answer = none ↔ answer.isOk = true := by
  cases answer <;> simp [failure?, Except.isOk, Except.toBool]

/-- An answer has the failure that it is an error with. -/
theorem failure?_eq_some_iff : failure? answer = some fault ↔ answer = .error fault := by
  cases answer <;> simp [failure?]

/-- A report is good if all answers are. -/
theorem report_eq_ok_iff :
    report answers = .ok () ↔ ∀ answer ∈ answers, answer.isOk = true := by
  have all : answers.findSome? failure? = none ↔ ∀ answer ∈ answers, answer.isOk = true := by
    simp only [List.findSome?_eq_none_iff, failure?_eq_none_iff]
  rw [← all, report]
  cases answers.findSome? failure? <;> simp

/-- A report names the first failure, and all answers before it are good. -/
theorem report_eq_error_iff :
    report answers = .error fault ↔
      ∃ earlier later, answers = earlier ++ .error fault :: later ∧
        ∀ answer ∈ earlier, answer.isOk = true := by
  have first : report answers = .error fault ↔ answers.findSome? failure? = some fault := by
    rw [report]
    cases answers.findSome? failure? <;> simp
  rw [first, List.findSome?_eq_some_iff]
  constructor
  · rintro ⟨earlier, answer, later, whole, failed, passed⟩
    rw [failure?_eq_some_iff] at failed
    rw [failed] at whole
    exact ⟨earlier, later, whole,
      fun answer member => failure?_eq_none_iff.mp (passed answer member)⟩
  · rintro ⟨earlier, later, whole, passed⟩
    exact ⟨earlier, .error fault, later, whole, rfl,
      fun answer member => failure?_eq_none_iff.mpr (passed answer member)⟩

end Reports

section Tries

variable (h : Heap)

/-- Ids are surrendered one after another. -/
theorem surrendered_append (ids more : List ArrayId) :
    h.surrendered (ids ++ more) = (h.surrendered ids).surrendered more := List.foldl_append

/-- Giving back a reference that a value holds is one try. -/
theorem releaseValue_array (id : ArrayId) :
    releaseValue (.array id) h =
      settle (((release id).outcome h).map fun _ => ()) (h.surrender id) := by
  change (discard (release id) : Action Heap Unit) h = _
  rw [discard_apply]
  unfold outcome surrender
  rcases h.release_cases id with ⟨fault, refused⟩ | ⟨_, _, _, freed⟩ | ⟨_, _, _, _, shared⟩
  · rw [refused]
    rfl
  · rw [freed]
    rfl
  · rw [shared]
    rfl

/-- The values that hold no reference have no part in it. -/
theorem releaseEach_cons_of_plain {value : Value} (plain : value.asArray? = none)
    (rest : List Value) : releaseEach (value :: rest) h = releaseEach rest h := by
  cases value with
  | array id => cases plain
  | _ => rfl

/-- A reference is tried before those behind it, and they are tried on what that has left. -/
theorem releaseEach_cons_array (id : ArrayId) (rest : List Value) :
    releaseEach (.array id :: rest) h =
      match (release id).outcome h with
      | .ok _ => releaseEach rest (h.surrender id)
      | .error fault => .error fault ((releaseEach rest).after (h.surrender id)) := by
  have first := h.releaseValue_array id
  rw [releaseEach, both]
  cases tried : (release id).outcome h with
  | ok freed =>
    rw [tried] at first
    rw [first]
    rfl
  | error fault =>
    rw [tried] at first
    rw [first]
    rfl

/-- Giving back what values hold tries every reference among them, in order, and reports the first
failure. -/
theorem releaseEach_eq (values : List Value) :
    releaseEach values h =
      settle (report (h.attempts (arrayIds values))) (h.surrendered (arrayIds values)) := by
  induction values generalizing h with
  | nil => rfl
  | cons value rest ih =>
    cases reference : value.asArray? with
    | none =>
      have ids : arrayIds (value :: rest) = arrayIds rest := List.filterMap_cons_none reference
      rw [ids, h.releaseEach_cons_of_plain reference]
      exact ih h
    | some id =>
      have ids : arrayIds (value :: rest) = id :: arrayIds rest :=
        List.filterMap_cons_some reference
      have array : value = .array id := by
        cases value <;> simp_all [Value.asArray?]
      have others := ih (h.surrender id)
      rw [ids, array, h.releaseEach_cons_array, attempts, report, List.findSome?_cons]
      cases tried : (release id).outcome h with
      | ok freed => exact others
      | error fault => exact congrArg _ (after_of_settle others)

end Tries

/-- Clearing something away tries every reference in it, in the order of `ids`, and leaves `left`.
It succeeds if all the tries do and otherwise reports the first failure. Doing it again does
nothing. -/
structure Sweeps {σ : Type} (action : Action (σ × Heap) Unit) (content : σ) (h : Heap)
    (ids : List ArrayId) (left : σ) : Prop where
  leaves : action.after (content, h) = (left, h.surrendered ids)
  succeeds : action.outcome (content, h) = .ok () ↔
    ∀ answer ∈ h.attempts ids, answer.isOk = true
  fails : ∀ fault, action.outcome (content, h) = .error fault ↔
    ∃ earlier later, h.attempts ids = earlier ++ .error fault :: later ∧
      ∀ answer ∈ earlier, answer.isOk = true
  again : action (action.after (content, h)) = .ok () (action.after (content, h))

/-- Giving back what values hold, with `left` in the place of what held them, is a sweep if there is
nothing to be given back the second time. -/
theorem sweeps_of_eq {σ : Type} {action : Action (σ × Heap) Unit} {content left : σ}
    {values : List Value} {h : Heap}
    (acts : action (content, h) = onRight (releaseEach values) (left, h))
    (settled : ∀ h : Heap, action (left, h) = .ok () (left, h)) :
    Sweeps action content h (arrayIds values) left := by
  have acts : action (content, h) =
      settle (report (h.attempts (arrayIds values))) (left, h.surrendered (arrayIds values)) := by
    rw [acts, onRight, h.releaseEach_eq]
    cases report (h.attempts (arrayIds values)) <;> rfl
  have leaves := after_of_settle acts
  have outcome := outcome_of_settle acts
  constructor
  case leaves => exact leaves
  case succeeds =>
    rw [outcome]
    exact report_eq_ok_iff
  case fails =>
    intro fault
    rw [outcome]
    exact report_eq_error_iff
  case again =>
    rw [leaves]
    exact settled _

end Heap

open HotPath.Heap

namespace Locals

/-- Cleared slots hold nothing that could be given back. -/
theorem releaseAll_blank (count : Nat) (h : Heap) :
    releaseAll (blank count, h) = .ok () (blank count, h) := by
  have ids : arrayIds (blank count).slots.toList = [] := by
    simp [arrayIds, blank, Value.asArray?]
  have size : (blank count).size = count := Array.size_replicate
  rw [releaseAll, onRight, h.releaseEach_eq, ids, size]
  rfl

/-- Giving back all slots sweeps up the ids in them, from the first slot to the last. -/
theorem releaseAll_sweeps (l : Locals) (h : Heap) :
    Sweeps releaseAll l h (arrayIds l.slots.toList) (blank l.size) :=
  sweeps_of_eq rfl (releaseAll_blank l.size)

end Locals

namespace OperandStack

variable (s : OperandStack) (height : Nat) (h : Heap)

/-- The operands up to a height. -/
def below : OperandStack := ⟨(s.entries.toList.take height).toArray, min s.base height, s.limit⟩

/-- Cutting the operands off gives back those above the height, from the top one down. -/
theorem truncate_eq :
    truncate height (s, h) =
      onRight (releaseEach (s.entries.toList.drop height).reverse) (s.below height, h) := by
  have entries : s.entries.shrink height = (s.entries.toList.take height).toArray :=
    Array.toList_inj.mp (Array.toList_shrink ..)
  rw [truncate, above_eq, entries, below]

/-- Where there is nothing above the height, nothing is given back. -/
theorem truncate_below : truncate height (s.below height, h) = .ok () (s.below height, h) := by
  have nothing : (s.below height).entries.toList.drop height = [] := by
    simp [below]
  have same : (s.below height).below height = s.below height := by
    simp [below, List.take_take]
  rw [truncate_eq, nothing, same]
  rfl

/-- Cutting the operands off sweeps up the ids above the height, from the top one down. -/
theorem truncate_sweeps :
    Sweeps (truncate height) s h (arrayIds (s.entries.toList.drop height).reverse)
      (s.below height) :=
  sweeps_of_eq (s.truncate_eq height h) (s.truncate_below height)

end OperandStack

/-- Clearing slots and dropping operands are sweeps, whatever they hold and whatever the heap knows
of it. The slots are tried from the first to the last, and all are empty afterwards; the operands
are tried from the top down, and those below the height are left, with the base at most at the
height. -/
theorem teardown_complete (l : Locals) (s : OperandStack) (height : Nat) (h : Heap) :
    Sweeps Locals.releaseAll l h (arrayIds l.slots.toList)
        ⟨Array.replicate l.slots.size .null⟩ ∧
      Sweeps (OperandStack.truncate height) s h
        (arrayIds (s.entries.toList.drop height).reverse)
        ⟨(s.entries.toList.take height).toArray, min s.base height, s.limit⟩ :=
  ⟨l.releaseAll_sweeps h, s.truncate_sweeps height h⟩

-- An array with one reference that is held twice: the first try frees it, and the second one finds
-- that it has been freed.
example :
    Locals.releaseAll (⟨#[.array ⟨0, 0⟩, .int 3, .array ⟨0, 0⟩]⟩,
        (Heap.empty.allocate (.ints #[7])).2) =
      .error (.negativeRefCount ⟨0, 0⟩) (⟨#[.null, .null, .null]⟩,
        ⟨#[⟨1, none⟩], [0], ⟨0, 1, 1, 1⟩⟩) := by
  rfl

namespace Machine

/-- The slots of some frames are tried frame by frame. -/
theorem surrendered_frames (frames : List Frame) (h : Heap) :
    h.surrendered (arrayIds (frames.flatMap fun frame => frame.locals.slots.toList)) =
      frames.foldl (fun h frame => (Locals.releaseAll.after (frame.locals, h)).2) h := by
  induction frames generalizing h with
  | nil => rfl
  | cons frame frames ih =>
    rw [List.flatMap_cons, arrayIds, List.filterMap_append, surrendered_append, List.foldl_cons,
      (frame.locals.releaseAll_sweeps h).leaves]
    exact ih _

/-- Unwinding clears away the slots of each frame, from the innermost outwards, and then the
operands, whatever has become of the ones before. -/
theorem heap_unwind (m : Machine) :
    m.unwind.heap =
      (OperandStack.clear.after (m.stack,
        m.frames.foldl (fun h frame => (Locals.releaseAll.after (frame.locals, h)).2)
          m.heap)).2 := by
  have cleared := m.stack.truncate_sweeps 0
    (m.heap.surrendered (arrayIds (m.frames.flatMap fun frame => frame.locals.slots.toList)))
  rw [← surrendered_frames, OperandStack.clear, cleared.leaves, ← surrendered_append, arrayIds,
    arrayIds, ← List.filterMap_append, ← OperandStack.above_eq]
  exact after_of_settle (m.heap.releaseEach_eq m.held)

end Machine

end HotPath
