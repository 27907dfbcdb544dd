import HotPath.Store.Heap

/-!
# Balanced heaps

A heap is balanced against a list of values when it counts every array exactly
as often as the list holds it, keeps alive every array that the list holds, and
keeps alive no other. `Heap.Balanced` also says that the free list names empty
slots only, each of them once, so that a new array never takes the place of
one that is still alive.

Each operation of the heap is described by how it moves the balance: who
allocates or retains comes to hold one reference more, who releases gives up
one. An operation on an array that is held never faults over its id.
-/

namespace HotPath

/-- The faults that only a wrong reference count could cause. -/
def Fault.blamesCounting : Fault → Bool
  | .invalidHeapId _ | .negativeRefCount _ => true
  | _ => false

namespace Heap

/-- Where an id of a live array leads. -/
theorem find?_eq_some_iff {h : Heap} {id : ArrayId} {cell : Cell} :
    h.find? id = some cell ↔ h.slots[id.index]? = some ⟨id.generation, some cell⟩ := by
  unfold find?
  cases found : h.slots[id.index]? with
  | none => simp
  | some slot =>
    obtain ⟨generation, contents⟩ := slot
    by_cases same : generation = id.generation
    · simp [same]
    · simp [same]

/-- A slot holds one array at a time. -/
theorem eq_of_find? {h : Heap} {id other : ArrayId} {cell otherCell : Cell}
    (found : h.find? id = some cell) (otherFound : h.find? other = some otherCell)
    (index : other.index = id.index) : other = id := by
  rw [find?_eq_some_iff] at found otherFound
  rw [index, found] at otherFound
  obtain ⟨otherIndex, generation⟩ := other
  simp only [Option.some.injEq, Slot.mk.injEq] at otherFound
  subst index
  cases otherFound.1
  rfl

/-- A change of one slot is seen under the ids that name it, and under no others. -/
theorem find?_modifyCell (h : Heap) (index : Nat) (change : Cell → Cell) (id : ArrayId) :
    (h.modifyCell index change).find? id =
      if id.index = index then (h.find? id).map change else h.find? id := by
  unfold find? modifyCell
  rw [Array.getElem?_modify]
  by_cases same : id.index = index
  · subst same
    cases h.slots[id.index]? with
    | none => simp
    | some slot => by_cases generation : slot.generation = id.generation <;> simp [generation]
  · simp [same, Ne.symm same]

/-- A slot that has been emptied has no array under any id, and the others have what they had. -/
theorem find?_vacate (h : Heap) (index : Nat) (id : ArrayId) :
    (h.vacate index).find? id = if id.index = index then none else h.find? id := by
  unfold find? vacate
  rw [Array.getElem?_modify]
  by_cases same : id.index = index
  · subst same
    cases h.slots[id.index]? <;> simp
  · simp [same, Ne.symm same]

section Elsewhere

variable {h : Heap} {id other : ArrayId} {cell : Cell}

/-- An array that is changed is found changed. -/
theorem find?_modifyCell_self (found : h.find? id = some cell) (change : Cell → Cell) :
    (h.modifyCell id.index change).find? id = some (change cell) := by
  rw [find?_modifyCell, if_pos rfl, found, Option.map_some]

/-- A change in one slot does not concern the other arrays. -/
theorem find?_modifyCell_of_ne (found : h.find? id = some cell) (different : other ≠ id)
    (change : Cell → Cell) : (h.modifyCell id.index change).find? other = h.find? other := by
  rw [find?_modifyCell]
  split
  next index =>
    cases there : h.find? other with
    | none => rfl
    | some otherCell => exact absurd (eq_of_find? found there index) different
  next => rfl

/-- Emptying one slot does not concern the other arrays. -/
theorem find?_vacate_of_ne (found : h.find? id = some cell) (different : other ≠ id) :
    (h.vacate id.index).find? other = h.find? other := by
  rw [find?_vacate]
  split
  next index =>
    cases there : h.find? other with
    | none => rfl
    | some otherCell => exact absurd (eq_of_find? found there index) different
  next => rfl

end Elsewhere

section Answers

variable {h : Heap} {id : ArrayId} {cell : Cell}

/-- A live array gets one more reference. -/
theorem retain_of_find? (found : h.find? id = some cell) :
    retain id h = .ok () (h.modifyCell id.index fun cell =>
      { cell with references := cell.references + 1 }) := by
  simp only [retain, lookUp, found]

/-- The last reference frees the array. -/
theorem release_last (found : h.find? id = some cell) (last : cell.references = 1) :
    release id h = .ok true (h.vacate id.index) := by
  simp [release, find?_eq_some_iff.mp found, last]

/-- Any other reference is taken off the count. -/
theorem release_shared {references : Nat} (found : h.find? id = some cell)
    (shared : cell.references = references + 2) :
    release id h = .ok false (h.modifyCell id.index fun cell =>
      { cell with references := references + 1 }) := by
  simp [release, find?_eq_some_iff.mp found, shared]

/-- A live array that is counted can be released, and the answer tells whether that was the last
reference. -/
theorem release_of_find? (found : h.find? id = some cell) (positive : 0 < cell.references) :
    ∃ after, release id h = .ok (decide (cell.references = 1)) after := by
  match count : cell.references with
  | 0 => exact absurd count (Nat.ne_of_gt positive)
  | 1 => exact ⟨_, release_last found count⟩
  | references + 2 => exact ⟨_, release_shared found count⟩

/-- Looking into a live array reads its cell. -/
theorem inspect_of_find? {α : Type} (found : h.find? id = some cell)
    (read : Cell → Except Fault α) : inspect id read h = Action.settle (read cell) h := by
  simp only [inspect, Action.ofExcept, Action.settle, lookUp, found, bind, Except.bind]

/-- A store into a live array writes the place that it finds, or changes nothing. -/
theorem store_of_find? (found : h.find? id = some cell) (index : Int64) (value : Value) :
    store id index value h = match storePlace cell.contents index value with
      | .ok place => .ok () (h.modifyCell id.index fun cell =>
          { cell with contents := cell.contents.set place value })
      | .error fault => .error fault h := by
  cases place : storePlace cell.contents index value <;>
    simp only [store, lookUp, found, bind, Except.bind, place]

/-- A dead id cannot be retained. -/
theorem retain_of_absent (absent : h.find? id = none) :
    retain id h = .error (.invalidHeapId id) h := by
  simp only [retain, lookUp, absent]

/-- A dead id cannot be looked into. -/
theorem inspect_of_absent {α : Type} (absent : h.find? id = none) (read : Cell → Except Fault α) :
    inspect id read h = .error (.invalidHeapId id) h := by
  simp only [inspect, Action.ofExcept, lookUp, absent, bind, Except.bind]

/-- A dead id cannot be stored into. -/
theorem store_of_absent (absent : h.find? id = none) (index : Int64) (value : Value) :
    store id index value h = .error (.invalidHeapId id) h := by
  simp only [store, lookUp, absent, bind, Except.bind]

end Answers

/-- Whatever an array accepts is no reference. -/
theorem isReference_of_storePlace {contents : Elements} {index : Int64} {value : Value}
    {place : Nat} (accepted : storePlace contents index value = .ok place) :
    value.isReference = false := by
  unfold storePlace at accepted
  split at accepted
  next => cases accepted
  next =>
    split at accepted
    next suits => cases contents <;> cases value <;> simp_all [Elements.accepts, Value.isReference]
    next => cases accepted

/-- What is wrong with an index or a value has nothing to do with counting. -/
theorem blamesCounting_of_storePlace {contents : Elements} {index : Int64} {value : Value}
    {fault : Fault} (refused : storePlace contents index value = .error fault) :
    fault.blamesCounting = false := by
  unfold storePlace at refused
  split at refused
  next => cases refused; rfl
  next =>
    split at refused
    next => cases refused
    next => cases refused; rfl

section Allocate

variable {h : Heap} (contents : Elements)

/-- A new array is counted. -/
theorem counts_allocate : (h.allocate contents).2.counts = h.counts.allocated := by
  unfold allocate
  split <;> rfl

/-- The id of a new array is that of no live array. -/
theorem find?_allocate_id
    (vacant : ∀ index ∈ h.free, ∃ generation, h.slots[index]? = some ⟨generation, none⟩) :
    h.find? (h.allocate contents).1 = none := by
  unfold allocate
  split
  next index free names =>
    obtain ⟨generation, slot⟩ := vacant index (by simp [names])
    simp [find?, slot]
  next => simp [find?]

/-- The new id finds the new array, and all others find what they found before. -/
theorem find?_allocate
    (vacant : ∀ index ∈ h.free, ∃ generation, h.slots[index]? = some ⟨generation, none⟩)
    (id : ArrayId) :
    (h.allocate contents).2.find? id =
      if id = (h.allocate contents).1 then some ⟨contents, 1⟩ else h.find? id := by
  obtain ⟨index, generation⟩ := id
  unfold allocate
  split
  next front free names =>
    obtain ⟨present, slot⟩ := vacant front (by simp [names])
    by_cases same : index = front
    · subst same
      by_cases current : generation = present
      · simp [find?, Array.getElem?_modify, slot, current]
      · simp [find?, Array.getElem?_modify, slot, current, Ne.symm current]
    · simp [find?, Array.getElem?_modify, slot, same, Ne.symm same]
  next =>
    by_cases same : index = h.slots.size
    · subst same
      by_cases current : generation = 0
      · simp [find?, current]
      · simp [find?, current, Ne.symm current]
    · simp [find?, Array.getElem?_push, same]

end Allocate

/-- The heap counts exactly the references that `held` holds. -/
structure Balanced (h : Heap) (held : List Value) : Prop where
  freeDistinct : h.free.Nodup
  freeVacant : ∀ index ∈ h.free, ∃ generation, h.slots[index]? = some ⟨generation, none⟩
  counted : ∀ {id : ArrayId} {cell : Cell}, h.find? id = some cell →
    cell.references = held.count (.array id) ∧ 0 < cell.references
  live : ∀ {id : ArrayId}, .array id ∈ held → ∃ cell, h.find? id = some cell

/-- On the empty heap nobody holds anything. -/
theorem balanced_empty : empty.Balanced [] where
  freeDistinct := List.nodup_nil
  freeVacant := by simp [empty]
  counted := by simp [find?, empty]
  live := by simp

namespace Balanced

variable {h : Heap} {held : List Value} {id : ArrayId}

/-- Only the numbers of occurrences matter. -/
theorem of_count_eq {others : List Value} (balanced : h.Balanced held)
    (counts : ∀ id : ArrayId, others.count (.array id) = held.count (.array id)) :
    h.Balanced others where
  freeDistinct := balanced.freeDistinct
  freeVacant := balanced.freeVacant
  counted found := by
    rw [counts]
    exact balanced.counted found
  live {id} member := by
    have positive := List.count_pos_iff.mpr member
    rw [counts] at positive
    exact balanced.live (List.count_pos_iff.mp positive)

/-- The order in which references are held does not matter. -/
theorem of_perm {others : List Value} (balanced : h.Balanced held) (perm : others.Perm held) :
    h.Balanced others :=
  balanced.of_count_eq fun _ => perm.count_eq _

/-- Values that are no references do not count. -/
theorem cons_iff_of_not_reference {value : Value} (plain : value.isReference = false) :
    h.Balanced (value :: held) ↔ h.Balanced held := by
  have counts (id : ArrayId) : (value :: held).count (.array id) = held.count (.array id) := by
    cases value <;> simp_all [Value.isReference]
  exact ⟨fun balanced => balanced.of_count_eq fun id => (counts id).symm,
    fun balanced => balanced.of_count_eq counts⟩

/-- Taking a slot off the free list leaves a list of empty slots. -/
theorem free_allocate (balanced : h.Balanced held) (contents : Elements) :
    (h.allocate contents).2.free.Nodup ∧
      ∀ index ∈ (h.allocate contents).2.free,
        ∃ generation, (h.allocate contents).2.slots[index]? = some ⟨generation, none⟩ := by
  have distinct := balanced.freeDistinct
  have vacant := balanced.freeVacant
  unfold Heap.allocate
  split
  next front free names =>
    rw [names] at distinct vacant
    obtain ⟨absent, distinct⟩ := List.nodup_cons.mp distinct
    refine ⟨distinct, fun index member => ?_⟩
    have different : front ≠ index := fun same => absurd member (same ▸ absent)
    simpa [Array.getElem?_modify, different] using vacant index (List.mem_cons_of_mem _ member)
  next => simp

/-- A new array is held once, by whoever asked for it. -/
theorem allocate (balanced : h.Balanced held) (contents : Elements) :
    (h.allocate contents).2.Balanced (.array (h.allocate contents).1 :: held) := by
  have fresh := find?_allocate contents balanced.freeVacant
  -- The new id was that of no live array, so nobody held it.
  have unheld : held.count (.array (h.allocate contents).1) = 0 := by
    refine List.count_eq_zero.mpr fun member => ?_
    obtain ⟨cell, found⟩ := balanced.live member
    rw [find?_allocate_id contents balanced.freeVacant] at found
    cases found
  refine ⟨balanced.free_allocate contents |>.1, balanced.free_allocate contents |>.2, ?_, ?_⟩
  · intro id cell found
    rw [fresh] at found
    split at found
    next same =>
      subst same
      cases found
      simp [unheld]
    next other => simpa [List.count_cons, Ne.symm other] using balanced.counted found
  · intro id member
    rw [fresh]
    split
    next => exact ⟨_, rfl⟩
    next other => exact balanced.live (by simpa [other] using member)

/-- A change to one array that accounts for the references that it comes to have. -/
theorem modifyCell {others : List Value} {cell : Cell} {change : Cell → Cell}
    (balanced : h.Balanced held) (found : h.find? id = some cell)
    (here : (change cell).references = others.count (.array id))
    (positive : 0 < (change cell).references)
    (elsewhere : ∀ other : ArrayId, other ≠ id →
      others.count (.array other) = held.count (.array other)) :
    (h.modifyCell id.index change).Balanced others where
  freeDistinct := balanced.freeDistinct
  freeVacant := by
    intro index free
    obtain ⟨generation, vacant⟩ := balanced.freeVacant index free
    refine ⟨generation, ?_⟩
    simp only [Heap.modifyCell, Array.getElem?_modify, vacant]
    split <;> rfl
  counted := by
    intro other otherCell otherFound
    by_cases same : other = id
    · subst same
      rw [find?_modifyCell, if_pos rfl, found] at otherFound
      cases otherFound
      exact ⟨here, positive⟩
    · rw [find?_modifyCell_of_ne found same] at otherFound
      rw [elsewhere other same]
      exact balanced.counted otherFound
  live := by
    intro other member
    by_cases same : other = id
    · subst same
      exact ⟨change cell, by rw [find?_modifyCell, if_pos rfl, found]; rfl⟩
    · have held : .array other ∈ held := by
        rw [← List.count_pos_iff, ← elsewhere other same]
        exact List.count_pos_iff.mpr member
      rw [find?_modifyCell_of_ne found same]
      exact balanced.live held

/-- An array that is held can be retained, and is then held once more. -/
theorem retain (balanced : h.Balanced held) (member : .array id ∈ held) :
    ∃ after, Heap.retain id h = .ok () after ∧ after.Balanced (.array id :: held) := by
  obtain ⟨cell, found⟩ := balanced.live member
  obtain ⟨counted, _⟩ := balanced.counted found
  refine ⟨h.modifyCell id.index fun cell => { cell with references := cell.references + 1 },
    retain_of_find? found, balanced.modifyCell found ?_ ?_ ?_⟩
  · simp [counted]
  · simp
  · intro other different
    simp [Ne.symm different]

/-- Nobody holds an array whose last reference is given back. -/
theorem vacate {cell : Cell} (balanced : h.Balanced (.array id :: held))
    (found : h.find? id = some cell) (last : cell.references = 1) :
    (h.vacate id.index).Balanced held := by
  obtain ⟨counted, _⟩ := balanced.counted found
  have unheld : held.count (.array id) = 0 := by
    rw [List.count_cons_self] at counted
    omega
  have occupied := find?_eq_some_iff.mp found
  have busy : id.index ∉ h.free := by
    intro free
    obtain ⟨generation, vacant⟩ := balanced.freeVacant _ free
    rw [occupied] at vacant
    cases vacant
  refine ⟨?_, ?_, ?_, ?_⟩
  · exact List.nodup_cons.mpr ⟨busy, balanced.freeDistinct⟩
  · intro index free
    rcases List.mem_cons.mp free with rfl | older
    · exact ⟨id.generation + 1, by simp [Heap.vacate, Array.getElem?_modify, occupied]⟩
    · obtain ⟨generation, vacant⟩ := balanced.freeVacant index older
      have different : id.index ≠ index := fun same => busy (same ▸ older)
      exact ⟨generation, by simp [Heap.vacate, Array.getElem?_modify, different, vacant]⟩
  · intro other otherCell otherFound
    by_cases same : other = id
    · subst same
      rw [find?_vacate, if_pos rfl] at otherFound
      cases otherFound
    · rw [find?_vacate_of_ne found same] at otherFound
      simpa [List.count_cons, Ne.symm same] using balanced.counted otherFound
  · intro other member
    have different : other ≠ id := by
      rintro rfl
      exact List.count_eq_zero.mp unheld member
    rw [find?_vacate_of_ne found different]
    exact balanced.live (List.mem_cons_of_mem _ member)

/-- A reference that is held can be given back. -/
theorem release (balanced : h.Balanced (.array id :: held)) :
    ∃ freed after, Heap.release id h = .ok freed after ∧ after.Balanced held := by
  obtain ⟨cell, found⟩ := balanced.live List.mem_cons_self
  obtain ⟨counted, positive⟩ := balanced.counted found
  rw [List.count_cons_self] at counted
  obtain ⟨contents, references⟩ := cell
  match references with
  | 0 => exact absurd positive (Nat.lt_irrefl 0)
  | 1 =>
    exact ⟨true, h.vacate id.index, release_last found rfl, balanced.vacate found rfl⟩
  | references + 2 =>
    refine ⟨false, h.modifyCell id.index fun cell => { cell with references := references + 1 },
      release_shared found rfl, balanced.modifyCell found ?_ ?_ ?_⟩
    · simpa using counted
    · simp
    · intro other different
      simp [Ne.symm different]

/-- A copy of a value that is held can be retained, whatever the value is. -/
theorem retainValue {value : Value} (balanced : h.Balanced held) (member : value ∈ held) :
    ∃ after, Heap.retainValue value h = .ok () after ∧ after.Balanced (value :: held) := by
  cases value with
  | array id => exact balanced.retain member
  | _ => exact ⟨h, rfl, (cons_iff_of_not_reference rfl).mpr balanced⟩

/-- A value that is held can be given back, whatever the value is. -/
theorem releaseValue {value : Value} (balanced : h.Balanced (value :: held)) :
    ∃ after, Heap.releaseValue value h = .ok () after ∧ after.Balanced held := by
  cases value with
  | array id =>
    obtain ⟨freed, after, released, balance⟩ := balanced.release
    refine ⟨after, ?_, balance⟩
    change (discard (Heap.release id) : Action Heap Unit) h = _
    rw [Action.discard_apply, released]
  | _ => exact ⟨h, rfl, (cons_iff_of_not_reference rfl).mp balanced⟩

/-- Giving a copy back undoes retaining it. -/
theorem retain_release {value : Value} (balanced : h.Balanced held) (member : value ∈ held) :
    ∃ after, Heap.retainValue value h = .ok () after ∧ Heap.releaseValue value after = .ok () h := by
  cases value with
  | array id =>
    obtain ⟨cell, found⟩ := balanced.live member
    obtain ⟨_, positive⟩ := balanced.counted found
    obtain ⟨references, count⟩ := Nat.exists_eq_add_one_of_ne_zero (Nat.ne_of_gt positive)
    have occupied := find?_eq_some_iff.mp found
    let more : Cell → Cell := fun cell => { cell with references := cell.references + 1 }
    let less : Cell → Cell := fun cell => { cell with references := references + 1 }
    have restored : (h.modifyCell id.index more).modifyCell id.index less = h := by
      have slots : (h.slots.modify id.index fun slot =>
            { slot with cell := slot.cell.map more }).modify id.index
          (fun slot => { slot with cell := slot.cell.map less }) = h.slots := by
        apply Array.ext_getElem?
        intro index
        simp only [Array.getElem?_modify]
        by_cases same : id.index = index
        · subst same
          simp [occupied, more, less, ← count]
        · simp [same]
      obtain ⟨_, _, _⟩ := h
      simp only [Heap.modifyCell, Heap.mk.injEq]
      exact ⟨slots, trivial, trivial⟩
    refine ⟨h.modifyCell id.index more, retain_of_find? found, ?_⟩
    have released : Heap.release id (h.modifyCell id.index more) = .ok false h := by
      have slot : (h.modifyCell id.index more).slots[id.index]? =
          some ⟨id.generation, some (more cell)⟩ := by
        simp [Heap.modifyCell, Array.getElem?_modify, occupied]
      have counted : (more cell).references = references + 2 := by
        simp only [more, count]
      simp only [Heap.release, slot, counted, UInt32.lt_irrefl, if_false]
      exact congrArg _ restored
    change (discard (Heap.release id) : Action Heap Unit) _ = _
    rw [Action.discard_apply, released]
  | _ => exact ⟨h, rfl, rfl⟩

/-- Values that are held can be given back one after another. -/
theorem releaseEach {values : List Value} (balanced : h.Balanced (values ++ held)) :
    ∃ after, Heap.releaseEach values h = .ok () after ∧ after.Balanced held := by
  induction values generalizing h with
  | nil => exact ⟨h, rfl, balanced⟩
  | cons value rest ih =>
    obtain ⟨between, first, balance⟩ := balanced.releaseValue
    obtain ⟨after, others, balance⟩ := ih balance
    exact ⟨after, by simp only [Heap.releaseEach, Action.both, first, others], balance⟩

/-- Whoever imports a host value holds what it became. -/
theorem importHost (balanced : h.Balanced held) (value : HostValue) :
    (h.importHost value).2.Balanced ((h.importHost value).1 :: held) := by
  cases value with
  | array contents => exact balanced.allocate contents
  | _ => exact (cons_iff_of_not_reference rfl).mpr balanced

/-- Whatever has been imported is held by the values that stand for it. -/
theorem importAll (balanced : h.Balanced held) (values : List HostValue) :
    (h.importAll values).2.Balanced ((h.importAll values).1 ++ held) := by
  induction values generalizing h held with
  | nil => exact balanced
  | cons value rest ih =>
    have first := balanced.importHost value
    exact (ih first).of_perm (List.perm_middle.symm)

/-- Reading off an array that is held leaves the heap alone, and the id is not to blame for a
fault. -/
theorem inspect {α : Type} (read : Cell → Except Fault α) (balanced : h.Balanced held)
    (member : .array id ∈ held) : ∃ cell, Heap.inspect id read h = Action.settle (read cell) h := by
  obtain ⟨cell, found⟩ := balanced.live member
  exact ⟨cell, inspect_of_find? found read⟩

/-- Storing changes no count, whether it succeeds or not, and what can be stored is no
reference. -/
theorem store (balanced : h.Balanced held) (member : .array id ∈ held) (index : Int64)
    (value : Value) :
    (∃ after, Heap.store id index value h = .ok () after ∧ after.Balanced held ∧
        value.isReference = false) ∨
      ∃ fault, Heap.store id index value h = .error fault h ∧ fault.blamesCounting = false := by
  obtain ⟨cell, found⟩ := balanced.live member
  have stored := store_of_find? found index value
  cases place : storePlace cell.contents index value with
  | ok position =>
    rw [place] at stored
    obtain ⟨counted, positive⟩ := balanced.counted found
    exact .inl ⟨_, stored, balanced.modifyCell found counted positive fun _ _ => rfl,
      isReference_of_storePlace place⟩
  | error fault =>
    rw [place] at stored
    exact .inr ⟨fault, stored, blamesCounting_of_storePlace place⟩

/-- A value that is held can be handed to the host, which then holds it instead. -/
theorem exportHost {value : Value} (balanced : h.Balanced (value :: held)) :
    ∃ answer after, Heap.exportHost value h = .ok answer after ∧ after.Balanced held := by
  cases value with
  | array id =>
    obtain ⟨cell, found⟩ := balanced.live List.mem_cons_self
    obtain ⟨freed, after, released, balance⟩ := balanced.release
    refine ⟨some (.array cell.contents), after, ?_, balance⟩
    have read : toHost id h = .ok (.array cell.contents) h := inspect_of_find? found _
    simp only [Heap.exportHost, Action.bind_apply, read, Action.discard_apply, released,
      Action.pure_apply]
  | _ => exact ⟨_, h, rfl, (cons_iff_of_not_reference rfl).mp balanced⟩

end Balanced

end Heap

end HotPath
