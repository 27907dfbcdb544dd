import HotPath.Proofs.Store.Conservation
import HotPath.Proofs.Store.Twins

/-!
# Actions that twins cannot be told apart by

`Action.Mirrors Twin taken action image given` is a contract between two executions: from
twin states that hold the pairs `taken` in hand, among others, `action` and its image either
both answer or both fault with the same fault, and the states that they leave are twins again.
A pair of answers that go together hands out pairs of values, which `given` says. The
rules for putting contracts together are those of `Action.Conserves`; the difference is
that here there are two executions to follow.

What twins are depends on the state. For heaps it is `Heap.Twins`; slots and operands
are twins if they hold paired values in the same places.
-/

namespace HotPath

namespace Action

variable {σ α β : Type}

/-- The two ends of an action and its image go together. -/
inductive Matches (Twin : σ → σ → Pairs → Prop) (given : α → α → Pairs → Prop) (others : Pairs) :
    EStateM.Result Fault σ α → EStateM.Result Fault σ α → Prop where
  | ok {answer other : α} {after afterwards : σ} {handed : Pairs}
    (answers : given answer other handed) (twins : Twin after afterwards (handed ++ others)) :
    Matches Twin given others (.ok answer after) (.ok other afterwards)
  | error (fault : Fault) {after afterwards : σ} (twins : Twin after afterwards others) :
    Matches Twin given others (.error fault after) (.error fault afterwards)

/-- From twin states that hold `taken` in hand, the action and its image lead to the same. What
else is in hand is left alone. -/
def Mirrors (Twin : σ → σ → Pairs → Prop) (taken : Pairs) (action image : Action σ α)
    (given : α → α → Pairs → Prop) : Prop :=
  ∀ state other others, Twin state other (taken ++ others) →
    Matches Twin given others (action state) (image other)

/-- The answers are the same, and the pairs in hand are these. -/
inductive Kept (kept : Pairs) (holds : α → Prop := fun _ => True) : α → α → Pairs → Prop where
  | intro {answer : α} (fine : holds answer) : Kept kept holds answer answer kept

/-- The answers are values that go together, and are handed out. -/
inductive Handed : Value → Value → Pairs → Prop where
  | intro {value other : Value} (like : value.Like other) : Handed value other [(value, other)]

/-- The answers are values that go together, and others hold them. -/
inductive Shown : Value → Value → Pairs → Prop where
  | intro {value other : Value} (like : value.Like other) : Shown value other []

/-- The answers name an array that is handed out. -/
inductive Named : ArrayId → ArrayId → Pairs → Prop where
  | intro (a b : ArrayId) : Named a b [(.array a, .array b)]

/-- A fault was held back on both sides or on none. -/
inductive HeldBack (given : α → α → Pairs → Prop) (kept : Pairs) :
    Except Fault α → Except Fault α → Pairs → Prop where
  | ok {answer other : α} {handed : Pairs} (answers : given answer other handed) :
    HeldBack given kept (.ok answer) (.ok other) (handed ++ kept)
  | error (fault : Fault) : HeldBack given kept (.error fault) (.error fault) kept

/-- An answer that is no reference, unless there was a fault. -/
def Plain (answer : Except Fault Value) : Prop :=
  ∀ value, answer = .ok value → value.isReference = false

namespace Mirrors

variable {Twin : σ → σ → Pairs → Prop} {taken : Pairs} {action image : Action σ α}
  {given : α → α → Pairs → Prop}

/-- Answers that go together leave twins as they are. -/
theorem pure {answer other : α} (answers : given answer other taken) :
    Mirrors Twin taken (Pure.pure answer) (Pure.pure other) given :=
  fun _ _ _ twins => .ok answers twins

/-- The same answer with nothing in hand. -/
theorem done {answer : α} : Mirrors Twin [] (Pure.pure answer) (Pure.pure answer) (Kept []) :=
  pure (.intro trivial)

/-- The same fault on both sides leaves twins as they are. -/
theorem throw (fault : Fault) :
    Mirrors Twin [] (MonadExcept.throw fault) (MonadExcept.throw fault) given :=
  fun _ _ _ twins => .error fault twins

/-- Twins that both go on from answers that go together are twins at the end, and twins that both
fault are twins there. -/
theorem bind {rest follow : α → Action σ β} {last : β → β → Pairs → Prop}
    (first : Mirrors Twin taken action image given)
    (second : ∀ answer other handed, given answer other handed →
      Mirrors Twin handed (rest answer) (follow other) last) :
    Mirrors Twin taken (action >>= rest) (image >>= follow) last := by
  intro state other others twins
  have early := first state other others twins
  rw [bind_apply, bind_apply]
  generalize action state = result at early
  generalize image other = reflection at early
  cases early with
  | ok answers twins => exact second _ _ _ answers _ _ _ twins
  | error fault twins => exact .error fault twins

/-- One action after another that hands out nothing. -/
theorem next {rest follow : α → Action σ β} {last : β → β → Pairs → Prop} {kept : Pairs}
    {holds : α → Prop} (first : Mirrors Twin taken action image (Kept kept holds))
    (second : ∀ answer, holds answer → Mirrors Twin kept (rest answer) (follow answer) last) :
    Mirrors Twin taken (action >>= rest) (image >>= follow) last := by
  apply first.bind
  rintro answer _ _ ⟨fine⟩
  exact second answer fine

/-- What is kept in hand survives an action whose fault is held back. -/
theorem attempt (kept : Pairs) (spec : Mirrors Twin taken action image given) :
    Mirrors Twin (taken ++ kept) (Action.attempt action) (Action.attempt image)
      (HeldBack given kept) := by
  intro state other others twins
  rw [List.append_assoc] at twins
  have result := spec _ _ _ twins
  unfold Action.attempt
  generalize action state = first at result
  generalize image other = second at result
  cases result with
  | ok answers twins =>
    rw [← List.append_assoc] at twins
    exact .ok (.ok answers) twins
  | error fault twins => exact .ok (.error fault) twins

/-- Reporting what was held back. -/
theorem settle {answer : Except Fault α} {holds : α → Prop}
    (fine : ∀ inner, answer = .ok inner → holds inner) :
    Mirrors Twin [] (Action.settle answer) (Action.settle answer) (Kept [] holds) := by
  intro state other others twins
  cases answer with
  | ok inner => exact .ok (.intro (fine inner rfl)) twins
  | error fault => exact .error fault twins

end Mirrors

end Action

namespace Heap

open HotPath.Action

variable {past : HeapCounts}

/-- A cell reads the same under both names of an array. -/
theorem inspect_mirrors {α : Type} {a b : ArrayId} {read : Cell → Except Fault α}
    (holds : Except Fault α → Prop) (fine : ∀ cell, holds (read cell)) :
    Mirrors (Twins past) [(.array a, .array b)] (attempt (inspect a read))
      (attempt (inspect b read)) (Kept [(.array a, .array b)] holds) := by
  intro h g others twins
  obtain ⟨cell, same, sameToo⟩ := twins.inspect List.mem_cons_self read
  have result := fine cell
  unfold attempt
  rw [same, sameToo]
  cases found : read cell with
  | ok answer =>
    rw [found] at result
    exact .ok (.intro result) twins
  | error fault =>
    rw [found] at result
    exact .ok (.intro result) twins

/-- An element that is loaded is the same under both names of an array, and no reference. -/
theorem load_mirrors (a b : ArrayId) (index : Int64) :
    Mirrors (Twins past) [(.array a, .array b)] (attempt (load a index)) (attempt (load b index))
      (Kept [(.array a, .array b)] Plain) := by
  apply inspect_mirrors
  rintro ⟨contents, references⟩ value
  split
  next element found =>
    rintro ⟨⟩
    obtain ⟨place, _, element⟩ := Option.bind_eq_some_iff.mp found
    cases contents <;> (obtain ⟨item, _, rfl⟩ := Option.map_eq_some_iff.mp element; rfl)
  next => rintro ⟨⟩

/-- The length of an array is the same under both of its names. -/
theorem length_mirrors (a b : ArrayId) :
    Mirrors (Twins past) [(.array a, .array b)] (attempt (length a)) (attempt (length b))
      (Kept [(.array a, .array b)]) :=
  inspect_mirrors _ fun _ => trivial

/-- Values that go together have the same text. -/
theorem textOf_mirrors (value other : Value) :
    Mirrors (Twins past) [(value, other)] (attempt (textOf value)) (attempt (textOf other))
      (Kept [(value, other)]) := by
  intro h g others twins
  have like : value.Like other := twins.like _ List.mem_cons_self
  cases like with
  | plain plain =>
    have prints : ∀ heap, textOf value heap = .ok value.text heap := by
      intro heap
      cases value <;> first | rfl | cases plain
    unfold attempt
    rw [prints, prints]
    exact .ok (.intro trivial) twins
  | array a b =>
    obtain ⟨cell, same, sameToo⟩ := twins.inspect List.mem_cons_self
      fun cell => .ok (HostValue.array cell.contents)
    have text : textOf (.array a) h = .ok (HostValue.array cell.contents).text h := by
      change (toHost a >>= fun contents => Pure.pure contents.text) h = _
      rw [bind_apply, toHost, same]
      rfl
    have textToo : textOf (.array b) g = .ok (HostValue.array cell.contents).text g := by
      change (toHost b >>= fun contents => Pure.pure contents.text) g = _
      rw [bind_apply, toHost, sameToo]
      rfl
    unfold attempt
    rw [text, textToo]
    exact .ok (.intro trivial) twins

/-- Only a value that is no reference is ever stored. -/
theorem store_mirrors (a b : ArrayId) (index : Int64) {value other : Value}
    (like : value.Like other) :
    Mirrors (Twins past) [(.array a, .array b)] (attempt (store a index value))
      (attempt (store b index other))
      (Kept [(.array a, .array b)] fun stored => stored = .ok () → value.isReference = false) := by
  intro h g others twins
  unfold attempt
  rcases twins.store List.mem_cons_self like index with
    ⟨after, afterwards, stored, storedToo, plain, twins⟩ | ⟨fault, refused, refusedToo⟩
  · rw [stored, storedToo]
    exact .ok (.intro fun _ => plain) twins
  · rw [refused, refusedToo]
    exact .ok (.intro (by rintro ⟨⟩)) twins

/-- A pair that is given back on both heaps is no longer in hand. -/
theorem releaseValue_mirrors (value other : Value) :
    Mirrors (Twins past) [(value, other)] (releaseValue value) (releaseValue other) (Kept []) := by
  intro h g others twins
  obtain ⟨after, afterwards, released, releasedToo, twins⟩ := twins.releaseValue
  rw [released, releasedToo]
  exact .ok (.intro trivial) twins

/-- A new array has a name on each side. -/
theorem allocate_mirrors (contents : Elements) :
    Mirrors (Twins past) [] (fun h => let (id, h) := h.allocate contents; .ok id h)
      (fun g => let (id, g) := g.allocate contents; .ok id g) Named := by
  intro h g others twins
  exact .ok (.intro _ _) (twins.allocate contents)

end Heap

/-- A pair in hand changes places with one in the slots. -/
theorem Heap.Twins.exchange {past : HeapCounts} {h g : Heap} {others slots : Pairs} {index : Nat}
    {pair previous : Value × Value} (twins : Heap.Twins past h g (pair :: (others ++ slots)))
    (found : slots[index]? = some previous) :
    Heap.Twins past h g (previous :: (others ++ slots.set index pair)) := by
  refine twins.of_count_eq fun counted => ?_
  have counts := Locals.count_set_add found pair counted
  simp only [List.count_append, List.count_cons, List.count_nil] at counts ⊢
  omega

namespace Locals

open HotPath.Action

/-- The slots hold paired values. -/
structure Alike (l k : Locals) (slots : Pairs) : Prop where
  left : l.slots.toList = slots.map Prod.fst
  right : k.slots.toList = slots.map Prod.snd

/-- The slots hold paired values on twin heaps. -/
def Twins (past : HeapCounts) (state other : Locals × Heap) (inHand : Pairs) : Prop :=
  ∃ slots, state.1.Alike other.1 slots ∧ state.2.Twins past other.2 (inHand ++ slots)

namespace Alike

variable {l k : Locals} {slots : Pairs}

/-- There are as many slots on either side. -/
theorem size (alike : l.Alike k slots) : l.size = k.size := by
  have left := congrArg List.length alike.left
  have right := congrArg List.length alike.right
  rw [Array.length_toList, List.length_map] at left right
  exact left.trans right.symm

/-- A slot is there for both or for neither. -/
theorem get (alike : l.Alike k slots) (index : Nat) :
    l.slots[index]? = (slots[index]?).map Prod.fst ∧
      k.slots[index]? = (slots[index]?).map Prod.snd := by
  rw [← Array.getElem?_toList, ← Array.getElem?_toList, alike.left, alike.right,
    List.getElem?_map, List.getElem?_map]
  exact ⟨rfl, rfl⟩

/-- A slot that is missing on one side is missing on the other, and for the same reason. -/
theorem missing (alike : l.Alike k slots) (index : Nat) : l.missing index = k.missing index :=
  congrArg (Fault.invalidLocalIndex index) alike.size

/-- A pair that is put into a slot on both sides takes the place of the one that was there. -/
theorem put (alike : l.Alike k slots) (index : Nat) (value other : Value) :
    (l.put index value).Alike (k.put index other) (slots.set index (value, other)) where
  left := by rw [Locals.put, Array.toList_setIfInBounds, alike.left, List.map_set]
  right := by rw [Locals.put, Array.toList_setIfInBounds, alike.right, List.map_set]

end Alike

variable {past : HeapCounts}

/-- A slot that is loaded puts its pair in hand, with a new reference on either heap. -/
theorem load_mirrors (index : Nat) : Mirrors (Twins past) [] (load index) (load index) Handed := by
  rintro ⟨l, h⟩ ⟨k, g⟩ others ⟨slots, alike, twins⟩
  obtain ⟨here, there⟩ := alike.get index
  have missing := alike.missing index
  unfold load
  rw [bind_apply, bind_apply]
  simp only [onLeft, Action.ofExcept, get]
  cases found : slots[index]? with
  | none =>
    simp only [here, there, found, Option.map_none, missing]
    exact .error _ ⟨slots, alike, twins⟩
  | some pair =>
    obtain ⟨value, other⟩ := pair
    have member : (value, other) ∈ [] ++ others ++ slots :=
      List.mem_append_right _ (List.mem_of_getElem? found)
    obtain ⟨after, afterwards, retained, retainedToo, kept⟩ := twins.retainValue member
    simp only [here, there, found, Option.map_some, bind_apply, onRight, retained, retainedToo,
      pure_apply]
    exact .ok (.intro (twins.like _ member)) ⟨slots, alike, kept⟩

/-- A pair that is stored into a slot is out of hand, and what was there is given back on both
sides. -/
theorem store_mirrors (index : Nat) (value other : Value) :
    Mirrors (Twins past) [(value, other)] (store index value) (store index other) (Kept []) := by
  rintro ⟨l, h⟩ ⟨k, g⟩ others ⟨slots, alike, twins⟩
  obtain ⟨here, there⟩ := alike.get index
  have missing := alike.missing index
  unfold store
  cases found : slots[index]? with
  | none =>
    obtain ⟨after, afterwards, released, releasedToo, twins⟩ := twins.releaseValue
    simp only [here, there, found, Option.map_none, released, releasedToo, missing]
    exact .error _ ⟨slots, alike, twins⟩
  | some pair =>
    obtain ⟨previous, former⟩ := pair
    obtain ⟨after, afterwards, released, releasedToo, twins⟩ :=
      (twins.exchange found).releaseValue
    simp only [here, there, found, Option.map_some, onRight, released, releasedToo]
    exact .ok (.intro trivial) ⟨_, alike.put index value other, twins⟩

/-- A slot holds the same integer for both, or no integer for either. -/
theorem Alike.getInt {l k : Locals} {slots : Pairs} (alike : l.Alike k slots)
    (like : ∀ pair ∈ slots, pair.1.Like pair.2) (index : Nat) :
    (∃ n, l.getInt index = .ok n ∧ k.getInt index = .ok n ∧
        slots[index]? = some (.int n, .int n)) ∨
      ∃ fault, l.getInt index = .error fault ∧ k.getInt index = .error fault := by
  obtain ⟨here, there⟩ := alike.get index
  unfold Locals.getInt Locals.get
  rw [here, there, alike.missing index]
  cases found : slots[index]? with
  | none => exact .inr ⟨_, rfl, rfl⟩
  | some pair =>
    obtain ⟨value, other⟩ := pair
    have like : value.Like other := like _ (List.mem_of_getElem? found)
    cases like with
    | array a b => exact .inr ⟨_, rfl, rfl⟩
    | plain =>
      cases value with
      | int n => exact .inl ⟨n, rfl, rfl, rfl⟩
      | _ => exact .inr ⟨_, rfl, rfl⟩

/-- A slot holds the same integer on both sides, or none on either. -/
theorem getInt_mirrors (index : Nat) :
    Mirrors (Twins past) [] (onLeft (Action.ofExcept fun l : Locals => l.getInt index))
      (onLeft (Action.ofExcept fun l : Locals => l.getInt index)) (Kept []) := by
  rintro ⟨l, h⟩ ⟨k, g⟩ others ⟨slots, alike, twins⟩
  have like (pair : Value × Value) (member : pair ∈ slots) : pair.1.Like pair.2 :=
    twins.like pair (List.mem_append_right _ member)
  rcases alike.getInt like index with ⟨n, read, readToo, -⟩ | ⟨fault, failed, failedToo⟩
  · simp only [onLeft, Action.ofExcept, read, readToo]
    exact .ok (.intro trivial) ⟨slots, alike, twins⟩
  · simp only [onLeft, Action.ofExcept, failed, failedToo]
    exact .error fault ⟨slots, alike, twins⟩

/-- What is overwritten is an integer, and so is what is written. -/
theorem setInt_mirrors (index : Nat) (n : Int64) :
    Mirrors (Twins past) [] (onLeft (setInt index n)) (onLeft (setInt index n)) (Kept []) := by
  rintro ⟨l, h⟩ ⟨k, g⟩ others ⟨slots, alike, twins⟩
  have like (pair : Value × Value) (member : pair ∈ slots) : pair.1.Like pair.2 :=
    twins.like pair (List.mem_append_right _ member)
  rcases alike.getInt like index with ⟨old, read, readToo, found⟩ | ⟨fault, failed, failedToo⟩
  · simp only [onLeft, setInt, read, readToo]
    have written : Heap.Twins past h g ((.int n, .int n) :: (others ++ slots)) :=
      (Heap.Twins.cons_iff_of_not_reference rfl).mpr twins
    have overwritten := (Heap.Twins.cons_iff_of_not_reference rfl).mp (written.exchange found)
    exact .ok (.intro trivial) ⟨_, alike.put index (.int n) (.int n), overwritten⟩
  · simp only [onLeft, setInt, failed, failedToo]
    exact .error fault ⟨slots, alike, twins⟩

end Locals

namespace OperandStack

open HotPath.Action

/-- The stacks hold paired values, hide the same number of them, and have the same capacity. -/
structure Alike (capacity : Nat) (s t : OperandStack) (entries : Pairs) : Prop where
  left : s.entries.toList = entries.map Prod.fst
  right : t.entries.toList = entries.map Prod.snd
  base : s.base = t.base
  limit : s.limit = capacity
  limitToo : t.limit = capacity

/-- The stacks hold paired values on twin heaps. -/
def Twins (capacity : Nat) (past : HeapCounts) (state other : OperandStack × Heap)
    (inHand : Pairs) : Prop :=
  ∃ entries, state.1.Alike capacity other.1 entries ∧
    state.2.Twins past other.2 (inHand ++ entries)

namespace Alike

variable {capacity : Nat} {s t : OperandStack} {entries : Pairs}

/-- Either stack has as many entries as there are pairs. -/
theorem size (alike : s.Alike capacity t entries) :
    s.entries.size = entries.length ∧ t.entries.size = entries.length := by
  have left := congrArg List.length alike.left
  have right := congrArg List.length alike.right
  rw [Array.length_toList, List.length_map] at left right
  exact ⟨left, right⟩

/-- Both stacks have the same capacity. -/
theorem capacity_eq (alike : s.Alike capacity t entries) : s.limit = t.limit :=
  alike.limit.trans alike.limitToo.symm

/-- There is room on both stacks or on neither. -/
theorem push (alike : s.Alike capacity t entries) (value other : Value) :
    (∃ after afterwards, OperandStack.push value s = .ok () after ∧
        OperandStack.push other t = .ok () afterwards ∧
        after.Alike capacity afterwards (entries ++ [(value, other)])) ∨
      ∃ fault, OperandStack.push value s = .error fault s ∧
        OperandStack.push other t = .error fault t := by
  obtain ⟨size, sizeToo⟩ := alike.size
  have sizes : t.entries.size = s.entries.size := sizeToo.trans size.symm
  unfold OperandStack.push
  rw [sizes, alike.capacity_eq]
  by_cases room : s.entries.size < t.limit
  · left
    rw [if_pos room, if_pos room]
    refine ⟨_, _, rfl, rfl, ?_⟩
    constructor
    case left => rw [Array.toList_push, alike.left, List.map_append, List.map_singleton]
    case right => rw [Array.toList_push, alike.right, List.map_append, List.map_singleton]
    case base => exact alike.base
    case limit => exact alike.limitToo
    case limitToo => exact alike.limitToo
  · right
    rw [if_neg room, if_neg room]
    exact ⟨_, rfl, rfl⟩

/-- There is an operand for both or for neither. -/
theorem peek (alike : s.Alike capacity t entries) :
    (s.peek = .error .stackUnderflow ∧ t.peek = .error .stackUnderflow) ∨
      ∃ below value other, entries = below ++ [(value, other)] ∧ s.peek = .ok value ∧
        t.peek = .ok other ∧ Alike capacity { s with entries := s.entries.pop }
          { t with entries := t.entries.pop } below := by
  obtain ⟨size, sizeToo⟩ := alike.size
  have base := alike.base
  by_cases starved : s.entries.size ≤ s.base
  · left
    unfold OperandStack.peek
    rw [if_pos starved, if_pos (by omega)]
    exact ⟨rfl, rfl⟩
  right
  obtain rfl | ⟨below, ⟨value, other⟩, rfl⟩ := List.eq_nil_or_concat entries
  · rw [List.length_nil] at size
    omega
  have left := alike.left
  have right := alike.right
  rw [List.concat_eq_append] at left right ⊢
  rw [List.map_append, List.map_singleton] at left right
  refine ⟨below, value, other, rfl, ?_, ?_, ?_⟩
  · unfold OperandStack.peek
    rw [if_neg starved, ← Array.getLast?_toList, left, List.getLast?_concat]
  · unfold OperandStack.peek
    rw [if_neg (by omega), ← Array.getLast?_toList, right, List.getLast?_concat]
  · constructor
    case left => rw [Array.toList_pop, left, List.dropLast_concat]
    case right => rw [Array.toList_pop, right, List.dropLast_concat]
    case base => exact base
    case limit => exact alike.limit
    case limitToo => exact alike.limitToo

/-- Entries and the empty slots behind them are those of the pairs. -/
theorem toList_append_blank {arguments : Array Value} {pairs : Pairs}
    {side : Value × Value → Value} (taken : arguments.toList = pairs.map side)
    (blank : side (.null, .null) = .null) (count : Nat) :
    (arguments ++ Array.replicate (count - arguments.size) Value.null).toList =
      (pairs ++ List.replicate (count - pairs.length) (Value.null, Value.null)).map side := by
  have size : arguments.size = pairs.length := by
    rw [← Array.length_toList, taken, List.length_map]
  rw [Array.toList_append, Array.toList_replicate, taken, size, List.map_append,
    List.map_replicate, blank]

/-- The entries above a height become the first slots of a call. -/
theorem arguments (alike : s.Alike capacity t entries) (height count : Nat) :
    Locals.Alike
      ⟨s.entries.extract height s.size ++
        Array.replicate (count - (s.entries.extract height s.size).size) .null⟩
      ⟨t.entries.extract height t.size ++
        Array.replicate (count - (t.entries.extract height t.size).size) .null⟩
      (entries.drop height ++ List.replicate (count - (entries.drop height).length)
        (.null, .null)) where
  left := by
    have taken := s.toList_extract height
    rw [alike.left, ← List.map_drop] at taken
    exact toList_append_blank taken rfl count
  right := by
    have taken := t.toList_extract height
    rw [alike.right, ← List.map_drop] at taken
    exact toList_append_blank taken rfl count

/-- The entries below a height go together when the others are gone. -/
theorem truncate (alike : s.Alike capacity t entries) (height : Nat) :
    Alike capacity { s with entries := s.entries.shrink height, base := min s.base height }
      { t with entries := t.entries.shrink height, base := min t.base height }
      (entries.take height) where
  left := by rw [Array.toList_shrink, alike.left, List.map_take]
  right := by rw [Array.toList_shrink, alike.right, List.map_take]
  base := congrArg (min · height) alike.base
  limit := alike.limit
  limitToo := alike.limitToo

/-- The entries above a height go together. -/
theorem above (alike : s.Alike capacity t entries) (height : Nat) :
    s.above height = (entries.drop height).reverse.map Prod.fst ∧
      t.above height = (entries.drop height).reverse.map Prod.snd := by
  rw [above_eq, above_eq, alike.left, alike.right, ← List.map_drop, ← List.map_drop,
    ← List.map_reverse, ← List.map_reverse]
  exact ⟨rfl, rfl⟩

end Alike

variable {capacity : Nat} {past : HeapCounts}

/-- The operands on top are a pair that the stacks hold. -/
theorem peek_mirrors :
    Mirrors (Twins capacity past) [] (onLeft (Action.ofExcept peek))
      (onLeft (Action.ofExcept peek)) Shown := by
  rintro ⟨s, h⟩ ⟨t, g⟩ others ⟨entries, alike, twins⟩
  rcases alike.peek with ⟨failed, failedToo⟩ | ⟨below, value, other, split, found, foundToo, -⟩
  · simp only [onLeft, Action.ofExcept, failed, failedToo]
    exact .error _ ⟨entries, alike, twins⟩
  · simp only [onLeft, Action.ofExcept, found, foundToo]
    have member : (value, other) ∈ [] ++ others ++ entries := by
      rw [split]
      simp
    exact .ok (.intro (twins.like _ member)) ⟨entries, alike, twins⟩

/-- The operands that are taken are a pair that is in hand now. -/
theorem pop_mirrors :
    Mirrors (Twins capacity past) [] (onLeft pop) (onLeft pop) Handed := by
  rintro ⟨s, h⟩ ⟨t, g⟩ others ⟨entries, alike, twins⟩
  rcases alike.peek with
    ⟨failed, failedToo⟩ | ⟨below, value, other, rfl, found, foundToo, popped⟩
  · simp only [onLeft, pop, failed, failedToo]
    exact .error _ ⟨entries, alike, twins⟩
  · simp only [onLeft, pop, found, foundToo]
    have moved : Heap.Twins past h g ([(value, other)] ++ others ++ below) := by
      refine twins.of_count_eq fun pair => ?_
      simp only [List.count_append, List.count_nil]
      omega
    exact .ok (.intro (moved.like _ List.mem_cons_self)) ⟨below, popped, moved⟩

/-- A pair is pushed on both stacks, or given back on both heaps. -/
theorem pushOrRelease_mirrors (value other : Value) :
    Mirrors (Twins capacity past) [(value, other)] (pushOrRelease value) (pushOrRelease other)
      (Kept []) := by
  rintro ⟨s, h⟩ ⟨t, g⟩ others ⟨entries, alike, twins⟩
  unfold pushOrRelease
  rcases alike.push value other with ⟨_, _, pushed, pushedToo, grown⟩ | ⟨fault, full, fullToo⟩
  · have moved : Heap.Twins past h g ([] ++ others ++ (entries ++ [(value, other)])) := by
      refine twins.of_count_eq fun pair => ?_
      simp only [List.count_append, List.count_nil]
      omega
    simp only [pushed, pushedToo]
    exact .ok (.intro trivial) ⟨_, grown, moved⟩
  · obtain ⟨after, afterwards, released, releasedToo, twins⟩ := twins.releaseValue
    simp only [full, fullToo, released, releasedToo]
    exact .error fault ⟨entries, alike, twins⟩

/-- The pair on top is there once more, with a new reference on either heap. -/
theorem dup_mirrors : Mirrors (Twins capacity past) [] dup dup (Kept []) := by
  rintro ⟨s, h⟩ ⟨t, g⟩ others ⟨entries, alike, twins⟩
  unfold dup
  simp only [bind_apply, onLeft, Action.ofExcept]
  rcases alike.peek with ⟨failed, failedToo⟩ | ⟨below, value, other, split, found, foundToo, -⟩
  · simp only [failed, failedToo]
    exact .error _ ⟨entries, alike, twins⟩
  rcases alike.push value other with ⟨_, _, pushed, pushedToo, grown⟩ | ⟨fault, full, fullToo⟩
  · have member : (value, other) ∈ [] ++ others ++ entries := by
      rw [split]
      simp
    obtain ⟨after, afterwards, retained, retainedToo, copied⟩ := twins.retainValue member
    have moved : Heap.Twins past after afterwards
        ([] ++ others ++ (entries ++ [(value, other)])) := by
      refine copied.of_count_eq fun pair => ?_
      simp only [List.count_append, List.count_cons, List.count_nil]
      omega
    simp only [found, foundToo, pushed, pushedToo, onRight, retained, retainedToo]
    exact .ok (.intro trivial) ⟨_, grown, moved⟩
  · simp only [found, foundToo, full, fullToo]
    exact .error fault ⟨entries, alike, twins⟩

/-- An action on the heap alone, with operands beside it. -/
theorem onRight_mirrors {α : Type} {taken : Pairs} {action image : Action Heap α}
    {given : α → α → Pairs → Prop} (spec : Mirrors (Heap.Twins past) taken action image given) :
    Mirrors (Twins capacity past) taken (onRight action) (onRight image) given := by
  rintro ⟨s, h⟩ ⟨t, g⟩ others ⟨entries, alike, twins⟩
  rw [List.append_assoc] at twins
  have result := spec h g _ twins
  simp only [onRight]
  generalize action h = first at result
  generalize image g = second at result
  cases result with
  | ok answers twins =>
    rw [← List.append_assoc] at twins
    exact .ok answers ⟨entries, alike, twins⟩
  | error fault twins => exact .error fault ⟨entries, alike, twins⟩

/-- The pair on top is gone, and has been given back on both heaps. -/
theorem drop_mirrors : Mirrors (Twins capacity past) [] drop drop (Kept []) := by
  apply pop_mirrors.bind
  rintro value other _ ⟨like⟩
  exact onRight_mirrors (Heap.releaseValue_mirrors value other)

end OperandStack

end HotPath
