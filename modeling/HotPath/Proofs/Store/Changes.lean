import HotPath.Proofs.Store.Balance
import Mathlib.Logic.Relation

/-!
# What can happen to a heap

Whatever an action does to a heap, it does by elementary changes: an array is put on it,
an array that is there is changed in place, or one that is there is taken off. `Action.Takes`
says that an action gets by with the changes of a relation, and `Heap.Evolves` is any
number of elementary changes of a heap.

`Heap.Tallied` is an invariant of these changes: the free list names the empty slots and no
others, and the counts are those of the arrays.
-/

namespace HotPath

namespace Action

open Relation

variable {σ α β : Type} {Change : σ → σ → Prop}

/-- The action brings about nothing but changes of this kind, whether it faults or not. -/
def Takes (Change : σ → σ → Prop) (action : Action σ α) : Prop :=
  ∀ state, ReflTransGen Change state (action.after state)

namespace Takes

/-- Answering changes nothing. -/
theorem pure (answer : α) : Takes Change (Pure.pure answer : Action σ α) := fun _ => .refl

/-- Giving up changes nothing. -/
theorem throw (fault : Fault) : Takes Change (MonadExcept.throw fault : Action σ α) :=
  fun _ => .refl

/-- Reading changes nothing. -/
theorem ofExcept (read : σ → Except Fault α) : Takes Change (Action.ofExcept read) := by
  intro state
  unfold Action.after Action.ofExcept
  cases read state <;> exact .refl

/-- Giving an answer that has been worked out before changes nothing. -/
theorem settle (answer : Except Fault α) : Takes Change (Action.settle answer : Action σ α) :=
  ofExcept _

/-- A sequence brings about the changes of its first action, and those of the rest if it gets
there. -/
theorem bind {action : Action σ α} {rest : α → Action σ β} (first : Takes Change action)
    (second : ∀ answer, Takes Change (rest answer)) : Takes Change (action >>= rest) := by
  intro state
  have early := first state
  unfold Action.after at early ⊢
  rw [bind_apply]
  cases ran : action state with
  | ok answer between =>
    rw [ran] at early
    exact early.trans (second answer between)
  | error fault between =>
    rw [ran] at early
    exact early

/-- A fault that is held back does not undo what has changed. -/
theorem attempt {action : Action σ α} (spec : Takes Change action) :
    Takes Change (Action.attempt action) := by
  intro state
  have changes := spec state
  unfold Action.after Action.attempt at *
  cases ran : action state with
  | ok answer after => rwa [ran] at changes
  | error fault after => rwa [ran] at changes

/-- Forgetting the answer does not undo what has changed. -/
theorem discard {action : Action σ α} (spec : Takes Change action) :
    Takes Change (discard action : Action σ Unit) := by
  intro state
  have changes := spec state
  unfold Action.after at *
  rw [discard_apply]
  cases ran : action state with
  | ok answer after => rwa [ran] at changes
  | error fault after => rwa [ran] at changes

/-- Doing something for each item brings about the changes of all of them. -/
theorem forM {body : α → Action σ Unit} (each : ∀ item, Takes Change (body item))
    (items : List α) : Takes Change (items.forM body) := by
  induction items with
  | nil => exact .pure _
  | cons item rest ih => exact (each item).bind fun _ => ih

/-- Two actions that are both carried out bring about the changes of both. -/
theorem both {first second : Action σ Unit} (early : Takes Change first)
    (late : Takes Change second) : Takes Change (Action.both first second) := by
  intro state
  have changes := early state
  unfold Action.after Action.both at *
  cases ran : first state with
  | ok answer between =>
    rw [ran] at changes
    exact changes.trans (late between)
  | error fault between =>
    rw [ran] at changes
    exact changes.trans (late between)

end Takes

end Action

namespace Heap

open HotPath.Action

/-- An elementary change of a heap. -/
inductive Change (h : Heap) : Heap → Prop where
  | allocated (contents : Elements) : Change h (h.allocate contents).2
  | modified {id : ArrayId} {cell : Cell} (found : h.find? id = some cell)
    (change : Cell → Cell) : Change h (h.modifyCell id.index change)
  | vacated {id : ArrayId} {cell : Cell} (found : h.find? id = some cell) :
    Change h (h.vacate id.index)

/-- One heap comes from another by elementary changes. -/
abbrev Evolves : Heap → Heap → Prop := Relation.ReflTransGen Change

section Operations

/-- A reference is added to a live array, or nothing happens. -/
theorem retain_cases (h : Heap) (id : ArrayId) :
    (∃ fault, retain id h = .error fault h) ∨
      ∃ cell, h.find? id = some cell ∧ retain id h = .ok () (h.modifyCell id.index fun cell =>
        { cell with references := cell.references + 1 }) := by
  cases found : h.find? id with
  | none => exact .inl ⟨_, retain_of_absent found⟩
  | some cell => exact .inr ⟨cell, rfl, retain_of_find? found⟩

/-- The generation of a slot, which for a slot that does not exist yet is the one that it will
start with. -/
def generation (h : Heap) (index : Nat) : UInt32 :=
  (h.slots[index]?.map Slot.generation).getD 0

/-- The slot of an id has moved on to a later generation. -/
def outdates (h : Heap) (id : ArrayId) : Prop := id.generation < h.generation id.index

instance (h : Heap) (id : ArrayId) : Decidable (h.outdates id) :=
  inferInstanceAs (Decidable (_ < _))

/-- The generation of a slot that is there is the slot's own. -/
theorem generation_of_slot {h : Heap} {index : Nat} {slot : Slot}
    (here : h.slots[index]? = some slot) : h.generation index = slot.generation := by
  simp [generation, here]

/-- What is not alive cannot be given back, and the fault tells an outdated id from others. -/
theorem release_of_absent {h : Heap} {id : ArrayId} (absent : h.find? id = none) :
    release id h =
      .error (if h.outdates id then .negativeRefCount id else .invalidHeapId id) h := by
  unfold release
  cases here : h.slots[id.index]? with
  | none =>
    have unborn : ¬ h.outdates id := by simp [outdates, generation, here]
    rw [if_neg unborn]
  | some slot =>
    have outdated : h.outdates id ↔ id.generation < slot.generation := by
      rw [outdates, generation_of_slot here]
    obtain ⟨generation, contents⟩ := slot
    dsimp only
    by_cases stale : id.generation < generation
    · rw [if_pos stale, if_pos (outdated.mpr stale)]
    rw [if_neg stale, if_neg (mt outdated.mp stale)]
    by_cases unknown : generation < id.generation
    · rw [if_pos unknown]
    rw [if_neg unknown]
    have current : generation = id.generation :=
      UInt32.le_antisymm (UInt32.not_lt.mp stale) (UInt32.not_lt.mp unknown)
    subst current
    cases contents with
    | none => rfl
    | some cell =>
      rw [find?_eq_some_iff.mpr here] at absent
      cases absent

/-- The last reference to a live array is given back, or another one, or nothing happens. -/
theorem release_cases (h : Heap) (id : ArrayId) :
    (∃ fault, release id h = .error fault h) ∨
      (∃ cell, h.find? id = some cell ∧ cell.references = 1 ∧
        release id h = .ok true (h.vacate id.index)) ∨
      ∃ cell references, h.find? id = some cell ∧ cell.references = references + 2 ∧
        release id h = .ok false (h.modifyCell id.index fun cell =>
          { cell with references := references + 1 }) := by
  cases found : h.find? id with
  | none => exact .inl ⟨_, release_of_absent found⟩
  | some cell =>
    match count : cell.references with
    | 0 =>
      refine .inl ⟨.negativeRefCount id, ?_⟩
      simp [release, find?_eq_some_iff.mp found, count]
    | 1 => exact .inr (.inl ⟨cell, rfl, count, release_last found count⟩)
    | references + 2 =>
      exact .inr (.inr ⟨cell, references, rfl, count, release_shared found count⟩)

/-- An element of a live array is replaced, or nothing happens. -/
theorem store_cases (h : Heap) (id : ArrayId) (index : Int64) (value : Value) :
    (∃ fault, store id index value h = .error fault h) ∨
      ∃ cell place, h.find? id = some cell ∧ storePlace cell.contents index value = .ok place ∧
        store id index value h = .ok () (h.modifyCell id.index fun cell =>
          { cell with contents := cell.contents.set place value }) := by
  cases found : h.find? id with
  | none => exact .inl ⟨_, store_of_absent found index value⟩
  | some cell =>
    have stored := store_of_find? found index value
    cases place : storePlace cell.contents index value with
    | error fault =>
      rw [place] at stored
      exact .inl ⟨fault, stored⟩
    | ok position =>
      rw [place] at stored
      exact .inr ⟨cell, position, rfl, place, stored⟩

/-- A new reference is a change of one array, if it is alive. -/
theorem retain_takes (id : ArrayId) : Takes Change (retain id) := by
  intro h
  unfold Action.after
  rcases h.retain_cases id with ⟨fault, refused⟩ | ⟨cell, found, retained⟩
  · rw [refused]
  · rw [retained]
    exact .single (.modified found _)

/-- A reference that is given back changes one array or takes it off, if it is alive. -/
theorem release_takes (id : ArrayId) : Takes Change (release id) := by
  intro h
  unfold Action.after
  rcases h.release_cases id with
    ⟨fault, refused⟩ | ⟨cell, found, _, freed⟩ | ⟨cell, references, found, _, shared⟩
  · rw [refused]
  · rw [freed]
    exact .single (.vacated found)
  · rw [shared]
    exact .single (.modified found _)

/-- Taking a reference to a value changes its array, if it is one. -/
theorem retainValue_takes (value : Value) : Takes Change (retainValue value) := by
  cases value with
  | array id => exact retain_takes id
  | _ => exact .pure _

/-- Giving a value back changes its array, if it is one. -/
theorem releaseValue_takes (value : Value) : Takes Change (releaseValue value) := by
  cases value with
  | array id => exact (release_takes id).discard
  | _ => exact .pure _

/-- Giving several values back brings about one change after the other. -/
theorem releaseEach_takes (values : List Value) : Takes Change (releaseEach values) := by
  induction values with
  | nil => exact .pure _
  | cons value rest ih => exact (releaseValue_takes value).both ih

/-- Looking into an array changes nothing. -/
theorem inspect_takes {α : Type} (id : ArrayId) (read : Cell → Except Fault α) :
    Takes Change (inspect id read) := .ofExcept _

/-- A store is a change of one array, if it succeeds. -/
theorem store_takes (id : ArrayId) (index : Int64) (value : Value) :
    Takes Change (store id index value) := by
  intro h
  unfold Action.after
  rcases h.store_cases id index value with ⟨fault, refused⟩ | ⟨cell, place, found, _, stored⟩
  · rw [refused]
  · rw [stored]
    exact .single (.modified found _)

/-- Asking for the text of a value changes nothing. -/
theorem textOf_takes (value : Value) : Takes Change (textOf value) := by
  cases value with
  | array id => exact (inspect_takes id _).bind fun contents => .pure _
  | _ => exact .pure _

/-- Exporting a value gives it back, and changes nothing else. -/
theorem exportHost_takes (value : Value) : Takes Change (exportHost value) := by
  cases value with
  | array id =>
    exact (inspect_takes id _).bind fun contents => (release_takes id).discard.bind fun _ => .pure _
  | _ => exact .pure _

/-- Importing a value puts an array on the heap, if it is one. -/
theorem importHost_evolves (h : Heap) (value : HostValue) :
    h.Evolves (h.importHost value).2 := by
  cases value with
  | array contents => exact .single (.allocated contents)
  | _ => exact .refl

/-- Importing several values puts one array on the heap after the other. -/
theorem importAll_evolves (h : Heap) (values : List HostValue) :
    h.Evolves (h.importAll values).2 := by
  induction values generalizing h with
  | nil => exact .refl
  | cons value rest ih => exact (h.importHost_evolves value).trans (ih _)

end Operations

/-- The number of slots that hold an array. -/
def occupied (h : Heap) : Nat := h.slots.toList.countP fun slot => slot.cell.isSome

/-- The free list names exactly the empty slots, each of them once, and the counts say how many
arrays there are and how many there have been. -/
structure Tallied (h : Heap) : Prop where
  distinct : h.free.Nodup
  vacant : ∀ index, index ∈ h.free ↔ ∃ generation, h.slots[index]? = some ⟨generation, none⟩
  live : h.counts.live = h.occupied
  freed : h.counts.allocations = h.counts.live + h.counts.frees

/-- On the empty heap there is nothing to count. -/
theorem tallied_empty : empty.Tallied where
  distinct := .nil
  vacant := by simp [empty]
  live := rfl
  freed := rfl

/-- How a count of entries moves when one of them changes. -/
theorem countP_modify {α : Type} (p : α → Bool) {entries : Array α} {index : Nat} {entry : α}
    (found : entries[index]? = some entry) (change : α → α) :
    (entries.modify index change).toList.countP p + (if p entry then 1 else 0) =
      entries.toList.countP p + (if p (change entry) then 1 else 0) := by
  obtain ⟨inside, rfl⟩ := Array.getElem?_eq_some_iff.mp found
  have split := List.take_append_drop index entries.toList
  rw [List.drop_eq_getElem_cons (by simpa using inside)] at split
  have modified : (entries.modify index change).toList = entries.toList.take index ++
      change entries[index] :: entries.toList.drop (index + 1) := by
    rw [Array.toList_modify, List.modify_eq_take_cons_drop (by simpa using inside)]
    simp
  have whole := congrArg (List.countP p) split
  rw [modified]
  simp only [List.countP_append, List.countP_cons, Array.getElem_toList] at whole ⊢
  omega

namespace Tallied

variable {h : Heap}

/-- The slot of a new array is no longer free. -/
theorem reused (tallied : h.Tallied) {front : Nat} {free : List Nat}
    (names : h.free = front :: free) (cell : Cell) :
    Tallied
      { slots := h.slots.modify front fun slot => { slot with cell := some cell }
        free
        counts := h.counts.allocated } := by
  have distinct := tallied.distinct
  have live := tallied.live
  have freed := tallied.freed
  rw [names] at distinct
  obtain ⟨absent, distinct⟩ := List.nodup_cons.mp distinct
  obtain ⟨generation, empty⟩ := (tallied.vacant front).mp (by simp [names])
  constructor
  case distinct => exact distinct
  case vacant =>
    intro index
    by_cases same : front = index
    · subst same
      simp [absent, Array.getElem?_modify, empty]
    · rw [Array.getElem?_modify, if_neg same, ← tallied.vacant index, names]
      simp [Ne.symm same]
  case live =>
    have moved := countP_modify (fun slot : Slot => slot.cell.isSome) empty fun slot =>
      { slot with cell := some cell }
    simp only [HeapCounts.allocated, occupied, live] at moved ⊢
    simpa using moved.symm
  case freed =>
    simp only [HeapCounts.allocated]
    omega

/-- A slot at the end of a heap that has none free leaves it without a free one. -/
theorem extended (tallied : h.Tallied) (full : h.free = []) (cell : Cell) :
    Tallied { slots := h.slots.push ⟨0, some cell⟩, free := [], counts := h.counts.allocated } := by
  have live := tallied.live
  have freed := tallied.freed
  constructor
  case distinct => exact .nil
  case vacant =>
    intro index
    have filled : ¬ ∃ generation, h.slots[index]? = some ⟨generation, none⟩ := by
      rw [← tallied.vacant index, full]
      exact List.not_mem_nil
    by_cases same : index = h.slots.size
    · simp [same]
    · simpa [Array.getElem?_push, same] using filled
  case live =>
    simp only [HeapCounts.allocated, occupied, live]
    simp
  case freed =>
    simp only [HeapCounts.allocated]
    omega

/-- A new array takes a slot off the free list, or gets a slot of its own at the end. -/
theorem allocated (tallied : h.Tallied) (contents : Elements) :
    (h.allocate contents).2.Tallied := by
  unfold allocate
  split
  next front free names => exact tallied.reused names ⟨contents, 1⟩
  next full => exact tallied.extended full ⟨contents, 1⟩

/-- An array that changes in place stays where it is. -/
theorem modified (tallied : h.Tallied) {id : ArrayId} {cell : Cell}
    (found : h.find? id = some cell) (change : Cell → Cell) :
    (h.modifyCell id.index change).Tallied := by
  have here := find?_eq_some_iff.mp found
  constructor
  case distinct => exact tallied.distinct
  case vacant =>
    intro index
    refine (tallied.vacant index).trans ?_
    simp only [modifyCell, Array.getElem?_modify]
    by_cases same : id.index = index
    · subst same
      simp [here]
    · simp [same]
  case live =>
    have moved := countP_modify (fun slot : Slot => slot.cell.isSome) here fun slot =>
      { slot with cell := slot.cell.map change }
    simp only [modifyCell, Heap.occupied, tallied.live] at moved ⊢
    simpa using moved.symm
  case freed => exact tallied.freed

/-- Taking an array off empties one slot. -/
theorem vacated (tallied : h.Tallied) {id : ArrayId} {cell : Cell}
    (found : h.find? id = some cell) : (h.vacate id.index).Tallied := by
  have here := find?_eq_some_iff.mp found
  have busy : id.index ∉ h.free := by
    rw [tallied.vacant]
    rintro ⟨generation, empty⟩
    rw [here] at empty
    cases empty
  have moved := countP_modify (fun slot : Slot => slot.cell.isSome) here fun slot =>
    ⟨slot.generation + 1, none⟩
  have live := tallied.live
  have freed := tallied.freed
  constructor
  case distinct => exact List.nodup_cons.mpr ⟨busy, tallied.distinct⟩
  case vacant =>
    intro index
    simp only [vacate, List.mem_cons, Array.getElem?_modify]
    by_cases same : id.index = index
    · subst same
      simp [here]
    · rw [if_neg same, ← tallied.vacant index]
      simp [Ne.symm same]
  case live =>
    simp only [vacate, HeapCounts.freed, Heap.occupied, live] at moved ⊢
    simp only [Option.isSome_some, Option.isSome_none, if_true, Bool.false_eq_true, if_false]
      at moved
    omega
  case freed =>
    simp only [Heap.occupied] at live
    simp only [vacate, HeapCounts.freed, freed, live] at moved ⊢
    simp only [Option.isSome_some, Option.isSome_none, if_true, Bool.false_eq_true, if_false]
      at moved
    omega

/-- No elementary change makes the counts wrong. -/
theorem change (tallied : h.Tallied) {after : Heap} (changed : h.Change after) :
    after.Tallied := by
  cases changed with
  | allocated contents => exact tallied.allocated contents
  | modified found change => exact tallied.modified found change
  | vacated found => exact tallied.vacated found

/-- The counts stay right over any number of changes. -/
theorem evolves (tallied : h.Tallied) {after : Heap} (changes : h.Evolves after) :
    after.Tallied := by
  induction changes with
  | refl => exact tallied
  | tail _ changed ih => exact ih.change changed

/-- A heap whose arrays nobody holds has none. -/
theorem deserted (tallied : h.Tallied) (balanced : h.Balanced []) :
    h.counts.live = 0 ∧ h.counts.allocations = h.counts.frees := by
  have live := tallied.live
  have freed := tallied.freed
  have none_left : h.occupied = 0 := by
    refine List.countP_eq_zero.mpr fun slot member held => ?_
    obtain ⟨index, inside, rfl⟩ := List.getElem_of_mem member
    obtain ⟨cell, here⟩ := Option.isSome_iff_exists.mp held
    rw [Array.getElem_toList] at here
    have found : h.find? ⟨index, h.slots[index].generation⟩ = some cell := by
      rw [find?_eq_some_iff, Array.getElem?_eq_getElem, ← here]
    obtain ⟨counted, positive⟩ := balanced.counted found
    rw [counted, List.count_nil] at positive
    exact Nat.lt_irrefl 0 positive
  omega

end Tallied

end Heap

end HotPath
