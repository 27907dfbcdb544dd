import HotPath.Proofs.Store.Balance
import HotPath.Store.Locals
import HotPath.Store.Operands

/-!
# Actions that conserve references

`Conserves` is the contract that every action on held values keeps. It takes over
the references of some values in hand and hands out those of others; what else
is in hand is left alone; and an action that faults has given back whatever it
took. `bind`, `attempt` and the other rules put contracts together along the code,
so that a reference that is dropped or doubled on some way out has no proof.
-/

namespace HotPath

/-- A state with a heap and places that hold values. -/
class Holder (σ : Type) where
  heap : σ → Heap
  held : σ → List Value
  /-- What the state has to be like for actions to run on it. -/
  Ready : σ → Prop

instance : Holder Heap := ⟨id, fun _ => [], fun _ => True⟩

instance : Holder (OperandStack × Heap) := ⟨Prod.snd, fun s => s.1.entries.toList, fun _ => True⟩

instance : Holder (Locals × Heap) := ⟨Prod.snd, fun s => s.1.slots.toList, fun _ => True⟩

/-- The heap counts exactly what the state holds and what is in hand. -/
def Holder.Balanced {σ : Type} [Holder σ] (state : σ) (inHand : List Value) : Prop :=
  Holder.Ready state ∧ (Holder.heap state).Balanced (inHand ++ Holder.held state)

/-- A heap on its own holds no references. -/
theorem Holder.balanced_heap_iff {h : Heap} {inHand : List Value} :
    Holder.Balanced h inHand ↔ h.Balanced inHand := by
  simp [Holder.Balanced, Holder.Ready, Holder.heap, Holder.held]

/-- Slots hold the references that are in them. -/
theorem Holder.balanced_locals_iff {l : Locals} {h : Heap} {inHand : List Value} :
    Holder.Balanced (l, h) inHand ↔ h.Balanced (inHand ++ l.slots.toList) := by
  simp [Holder.Balanced, Holder.Ready, Holder.heap, Holder.held]

/-- A stack of operands holds the references that are on it. -/
theorem Holder.balanced_operands_iff {s : OperandStack} {h : Heap} {inHand : List Value} :
    Holder.Balanced (s, h) inHand ↔ h.Balanced (inHand ++ s.entries.toList) := by
  simp [Holder.Balanced, Holder.Ready, Holder.heap, Holder.held]

/-- A fault that was held back does not blame the counting, and an answer is as it should be. -/
def Spared {α : Type} (answers : α → Prop) : Except Fault α → Prop
  | .ok answer => answers answer
  | .error fault => fault.blamesCounting = false

namespace Action

variable {σ α β : Type} [Holder σ]

/-- The action takes over the references of `taken` and hands out those that go with its answer.
It leaves alone whatever else is in hand, gives everything back before it faults, and
never faults because of a wrong count. -/
def Conserves (taken : List Value) (action : Action σ α) (given : α → List Value)
    (answers : α → Prop := fun _ => True) : Prop :=
  ∀ (state : σ) (others : List Value), Holder.Balanced state (taken ++ others) →
    match action state with
    | .ok answer after => Holder.Balanced after (given answer ++ others) ∧ answers answer
    | .error fault after => Holder.Balanced after others ∧ fault.blamesCounting = false

namespace Conserves

variable {taken : List Value} {action : Action σ α} {given : α → List Value}
  {answers : α → Prop}

/-- Answering hands out what was in hand. -/
theorem pure {answer : α} (leaves : given answer = taken) (holds : answers answer) :
    Conserves (σ := σ) taken (Pure.pure answer) given answers :=
  leaves ▸ fun _ _ balanced => ⟨balanced, holds⟩

/-- A fault that blames nobody's counting may be reported once nothing is in hand. -/
theorem throw {fault : Fault} (spared : fault.blamesCounting = false) :
    Conserves (σ := σ) (α := α) [] (MonadExcept.throw fault) given answers :=
  fun _ _ balanced => ⟨balanced, spared⟩

/-- One action takes what another has handed out. -/
theorem bind {rest : α → Action σ β} {last : β → List Value} {ends : β → Prop}
    (first : Conserves taken action given answers)
    (second : ∀ answer, answers answer → Conserves (given answer) (rest answer) last ends) :
    Conserves taken (action >>= rest) last ends := by
  intro state others balanced
  have result := first state others balanced
  rw [bind_apply]
  cases ran : action state with
  | ok answer after =>
    rw [ran] at result
    exact second answer result.2 after others result.1
  | error fault after =>
    rw [ran] at result
    exact result

/-- Only the numbers of occurrences matter for what is taken. -/
theorem of_count_eq {others : List Value} (spec : Conserves taken action given answers)
    (counts : ∀ id : ArrayId, others.count (.array id) = taken.count (.array id)) :
    Conserves others action given answers := by
  intro state rest balanced
  refine spec state rest ⟨balanced.1, balanced.2.of_count_eq fun id => ?_⟩
  simp only [List.count_append, counts]

/-- It makes no difference whether a value that is no reference is in hand. -/
theorem cons_iff_of_not_reference {value : Value} (plain : value.isReference = false) :
    Conserves (value :: taken) action given answers ↔ Conserves taken action given answers := by
  have counts (id : ArrayId) : (value :: taken).count (.array id) = taken.count (.array id) := by
    cases value <;> simp_all [Value.isReference]
  exact ⟨fun spec => spec.of_count_eq fun id => (counts id).symm,
    fun spec => spec.of_count_eq counts⟩

/-- What is kept in hand survives an action whose fault is held back. -/
theorem attempt (kept : List Value) (spec : Conserves taken action given answers) :
    Conserves (taken ++ kept) (Action.attempt action)
      (fun
        | .ok answer => given answer ++ kept
        | .error _ => kept)
      (Spared answers) := by
  intro state others balanced
  rw [List.append_assoc] at balanced
  have result := spec _ _ balanced
  unfold Action.attempt
  cases ran : action state with
  | ok answer after =>
    rw [ran] at result
    exact ⟨by simpa using result.1, result.2⟩
  | error fault after =>
    rw [ran] at result
    exact result

/-- Reporting what was held back needs nothing in hand. -/
theorem settle {answer : Except Fault α} (spared : Spared answers answer) :
    Conserves (σ := σ) [] (Action.settle answer) (fun _ => []) answers := by
  intro state others balanced
  cases answer with
  | ok answer => exact ⟨balanced, spared⟩
  | error fault => exact ⟨balanced, spared⟩

/-- An action on the heap alone, with operands beside it. -/
theorem onRight_operands {action : Action Heap α} (spec : Conserves taken action given answers) :
    Conserves taken (onRight (σ := OperandStack) action) given answers := by
  rintro ⟨s, h⟩ others balanced
  rw [Holder.balanced_operands_iff, List.append_assoc] at balanced
  have result := spec h _ (Holder.balanced_heap_iff.mpr balanced)
  simp only [onRight]
  cases ran : action h with
  | ok answer after =>
    rw [ran] at result
    obtain ⟨balance, holds⟩ := result
    rw [Holder.balanced_heap_iff, ← List.append_assoc] at balance
    exact ⟨Holder.balanced_operands_iff.mpr balance, holds⟩
  | error fault after =>
    rw [ran] at result
    obtain ⟨balance, spared⟩ := result
    exact ⟨Holder.balanced_operands_iff.mpr (Holder.balanced_heap_iff.mp balance), spared⟩

/-- An answer that is worked out without changing the state. -/
theorem ofExcept {read : σ → Except Fault α} (spared : ∀ state, Spared answers (read state)) :
    Conserves [] (Action.ofExcept read) (fun _ => []) answers := by
  intro state others balanced
  have result := spared state
  unfold Action.ofExcept
  cases found : read state with
  | ok answer =>
    rw [found] at result
    exact ⟨balanced, result⟩
  | error fault =>
    rw [found] at result
    exact ⟨balanced, result⟩

end Conserves

end Action

namespace Heap

open HotPath.Action

/-- Giving back what a value in hand holds. -/
theorem releaseValue_conserves (value : Value) :
    Conserves [value] (releaseValue value) fun _ => [] := by
  intro h others balanced
  obtain ⟨after, released, balance⟩ := (Holder.balanced_heap_iff.mp balanced).releaseValue
  rw [released]
  exact ⟨Holder.balanced_heap_iff.mpr balance, trivial⟩

/-- Reading off an array in hand. The array stays in hand. -/
theorem inspect_conserves {α : Type} {id : ArrayId} {read : Cell → Except Fault α}
    (answers : α → Prop) (spared : ∀ cell, Spared answers (read cell)) :
    Conserves [.array id] (attempt (inspect id read)) (fun _ => [.array id])
      (Spared answers) := by
  intro h others balanced
  obtain ⟨cell, same⟩ :=
    (Holder.balanced_heap_iff.mp balanced).inspect read List.mem_cons_self
  have result := spared cell
  unfold attempt
  rw [same]
  cases found : read cell with
  | ok answer =>
    rw [found] at result
    exact ⟨balanced, result⟩
  | error fault =>
    rw [found] at result
    exact ⟨balanced, result⟩

/-- A load leaves the array in hand, and answers no reference. -/
theorem load_conserves (id : ArrayId) (index : Int64) :
    Conserves [.array id] (attempt (load id index)) (fun _ => [.array id])
      (Spared fun value => value.isReference = false) := by
  refine inspect_conserves _ fun cell => ?_
  obtain ⟨contents, references⟩ := cell
  split
  next value found =>
    obtain ⟨place, _, element⟩ := Option.bind_eq_some_iff.mp found
    cases contents <;> (obtain ⟨item, _, rfl⟩ := Option.map_eq_some_iff.mp element; rfl)
  next => rfl

/-- Asking for a length leaves the array in hand. -/
theorem length_conserves (id : ArrayId) :
    Conserves [.array id] (attempt (length id)) (fun _ => [.array id])
      (Spared fun _ => True) := by
  refine inspect_conserves _ fun cell => ?_
  exact trivial

/-- A store leaves the array in hand, and succeeds only with a value that is no reference. -/
theorem store_conserves (id : ArrayId) (index : Int64) (value : Value) :
    Conserves [.array id] (attempt (store id index value)) (fun _ => [.array id])
      (Spared fun _ => value.isReference = false) := by
  intro h others balanced
  rw [Holder.balanced_heap_iff] at balanced
  have result := balanced.store List.mem_cons_self index value
  unfold attempt
  rcases result with ⟨after, stored, balance, plain⟩ | ⟨fault, refused, spared⟩
  · rw [stored]
    exact ⟨Holder.balanced_heap_iff.mpr balance, plain⟩
  · rw [refused]
    exact ⟨Holder.balanced_heap_iff.mpr balanced, spared⟩

/-- The text of a value in hand. -/
theorem textOf_conserves (value : Value) :
    Conserves [value] (attempt (textOf value)) (fun _ => [value]) (Spared fun _ => True) := by
  intro h others balanced
  rw [Holder.balanced_heap_iff] at balanced
  cases value with
  | array id =>
    obtain ⟨cell, same⟩ := balanced.inspect
      (fun cell => .ok (HostValue.array cell.contents)) List.mem_cons_self
    have text : textOf (.array id) h = .ok (HostValue.array cell.contents).text h := by
      change (toHost id >>= fun contents => Pure.pure contents.text) h = _
      rw [bind_apply, toHost, same]
      rfl
    unfold attempt
    rw [text]
    exact ⟨Holder.balanced_heap_iff.mpr balanced, trivial⟩
  | _ => exact ⟨Holder.balanced_heap_iff.mpr balanced, trivial⟩

end Heap

namespace Locals

open HotPath.Action Holder

/-- Copying a slot out hands out a reference to what the slot holds. -/
theorem load_conserves (index : Nat) : Conserves [] (load index) fun value => [value] := by
  rintro ⟨l, h⟩ others balanced
  rw [balanced_locals_iff] at balanced
  unfold load
  rw [bind_apply]
  simp only [onLeft, Action.ofExcept, get]
  cases found : l.slots[index]? with
  | none => exact ⟨balanced_locals_iff.mpr balanced, rfl⟩
  | some value =>
    have member : value ∈ [] ++ others ++ l.slots.toList :=
      List.mem_append_right _ (Array.mem_toList_iff.mpr (Array.mem_of_getElem? found))
    obtain ⟨after, retained, balance⟩ := balanced.retainValue member
    simp only [bind_apply, onRight, retained, pure_apply]
    exact ⟨balanced_locals_iff.mpr balance, trivial⟩

/-- What a list holds after one of its entries has been replaced. -/
theorem count_set_add {α : Type} [BEq α] [LawfulBEq α] {values : List α} {index : Nat}
    {previous : α} (found : values[index]? = some previous) (value other : α) :
    (values.set index value).count other + [previous].count other =
      values.count other + [value].count other := by
  obtain ⟨inside, rfl⟩ := List.getElem?_eq_some_iff.mp found
  rw [List.count_set inside]
  have present : [values[index]].count other ≤ values.count other := by
    exact (List.singleton_sublist.mpr (List.getElem_mem inside)).count_le other
  simp only [List.count_singleton, beq_iff_eq] at present ⊢
  omega

/-- Moving a value into a slot takes it over, whether there is such a slot or not. -/
theorem store_conserves (index : Nat) (value : Value) :
    Conserves [value] (store index value) fun _ => [] := by
  rintro ⟨l, h⟩ others balanced
  rw [balanced_locals_iff] at balanced
  unfold store
  simp only
  cases found : l.slots[index]? with
  | none =>
    obtain ⟨after, released, balance⟩ := balanced.releaseValue
    simp only [released]
    exact ⟨balanced_locals_iff.mpr balance, rfl⟩
  | some previous =>
    have moved : h.Balanced (previous :: (others ++ (l.put index value).slots.toList)) := by
      refine balanced.of_count_eq fun id => ?_
      have stored : l.slots.toList[index]? = some previous := by simpa using found
      have counts := count_set_add stored value (.array id)
      simp only [put, Array.toList_setIfInBounds, List.count_append, List.count_cons] at counts ⊢
      simp only [List.count_nil] at counts ⊢
      omega
    obtain ⟨after, released, balance⟩ := moved.releaseValue
    simp only [onRight, released]
    exact ⟨balanced_locals_iff.mpr balance, trivial⟩

/-- Reading an integer from a slot takes nothing and gives nothing. -/
theorem getInt_conserves (index : Nat) :
    Conserves [] (onLeft (τ := Heap) (Action.ofExcept fun l : Locals => l.getInt index))
      fun _ => [] := by
  rintro ⟨l, h⟩ others balanced
  simp only [onLeft, Action.ofExcept, getInt, get]
  cases l.slots[index]? with
  | none => exact ⟨balanced, rfl⟩
  | some value =>
    cases value with
    | int n => exact ⟨balanced, trivial⟩
    | _ => exact ⟨balanced, rfl⟩

/-- Overwriting an integer drops no reference. -/
theorem setInt_conserves (index : Nat) (n : Int64) :
    Conserves [] (onLeft (τ := Heap) (setInt index n)) fun _ => [] := by
  rintro ⟨l, h⟩ others balanced
  simp only [onLeft, setInt, getInt, get]
  cases found : l.slots[index]? with
  | none => exact ⟨balanced, rfl⟩
  | some value =>
    cases value with
    | int old =>
      refine ⟨?_, trivial⟩
      rw [balanced_locals_iff] at balanced ⊢
      refine balanced.of_count_eq fun id => ?_
      have stored : l.slots.toList[index]? = some (.int old) := by simpa using found
      have counts := count_set_add stored (.int n) (.array id)
      simp only [put, Array.toList_setIfInBounds, List.count_append] at counts ⊢
      simp at counts ⊢
      omega
    | _ => exact ⟨balanced, rfl⟩

end Locals

namespace OperandStack

open HotPath.Action Holder

/-- The entries are those below the top and the top. -/
theorem toList_of_peek {s : OperandStack} {value : Value} (found : s.peek = .ok value) :
    s.entries.toList = s.entries.pop.toList ++ [value] := by
  unfold peek at found
  split at found
  next => cases found
  next =>
    cases top : s.entries.back? with
    | none => rw [top] at found; cases found
    | some entry =>
      rw [top] at found
      cases found
      rw [← Array.getLast?_toList, List.getLast?_eq_some_iff] at top
      obtain ⟨below, whole⟩ := top
      rw [Array.toList_pop, whole, List.dropLast_concat]

/-- That an operand is missing is no fault in the counting of references. -/
theorem blamesCounting_of_peek {s : OperandStack} {fault : Fault} (failed : s.peek = .error fault) :
    fault.blamesCounting = false := by
  unfold peek at failed
  split at failed
  next => cases failed; rfl
  next => split at failed <;> cases failed; rfl

/-- Looking at the top operand takes nothing and gives nothing. -/
theorem peek_conserves :
    Conserves [] (onLeft (τ := Heap) (Action.ofExcept peek)) fun _ => [] := by
  rintro ⟨s, h⟩ others balanced
  simp only [onLeft, Action.ofExcept]
  cases found : s.peek with
  | ok value => exact ⟨balanced, trivial⟩
  | error fault => exact ⟨balanced, blamesCounting_of_peek found⟩

/-- Popping hands out the reference of the entry. -/
theorem pop_conserves : Conserves [] (onLeft (τ := Heap) pop) fun value => [value] := by
  rintro ⟨s, h⟩ others balanced
  simp only [onLeft, pop]
  cases found : s.peek with
  | ok value =>
    refine ⟨?_, trivial⟩
    rw [balanced_operands_iff] at balanced ⊢
    refine balanced.of_count_eq fun id => ?_
    rw [toList_of_peek found]
    simp only [List.count_append, List.count_nil]
    omega
  | error fault => exact ⟨balanced, blamesCounting_of_peek found⟩

/-- A value that finds no room is given back. -/
theorem pushOrRelease_conserves (value : Value) :
    Conserves [value] (pushOrRelease value) fun _ => [] := by
  rintro ⟨s, h⟩ others balanced
  rw [balanced_operands_iff] at balanced
  unfold pushOrRelease push
  by_cases room : s.entries.size < s.limit
  · simp only [room, if_true]
    refine ⟨balanced_operands_iff.mpr (balanced.of_count_eq fun id => ?_), trivial⟩
    simp only [Array.toList_push, List.count_append, List.count_nil]
    omega
  · obtain ⟨after, released, balance⟩ := balanced.releaseValue
    simp only [room, if_false, released]
    exact ⟨balanced_operands_iff.mpr balance, rfl⟩

/-- The reference that a doubled operand needs is counted. -/
theorem dup_conserves : Conserves [] dup fun _ => [] := by
  rintro ⟨s, h⟩ others balanced
  unfold dup
  simp only [bind_apply, onLeft, Action.ofExcept, push]
  cases found : s.peek with
  | error fault => exact ⟨balanced, blamesCounting_of_peek found⟩
  | ok value =>
    by_cases room : s.entries.size < s.limit
    · rw [balanced_operands_iff] at balanced
      have member : value ∈ [] ++ others ++ s.entries.toList := by
        rw [toList_of_peek found]
        simp
      obtain ⟨after, retained, balance⟩ := balanced.retainValue member
      simp only [room, if_true, onRight, retained]
      refine ⟨balanced_operands_iff.mpr (balance.of_count_eq fun id => ?_), trivial⟩
      simp only [Array.toList_push, List.count_append, List.count_cons]
      simp only [List.count_nil]
      omega
    · simp only [room, if_false]
      exact ⟨balanced, rfl⟩

/-- The reference of a dropped operand is given back. -/
theorem drop_conserves : Conserves [] drop fun _ => [] :=
  pop_conserves.bind fun value _ => (Heap.releaseValue_conserves value).onRight_operands

end OperandStack

end HotPath
