import HotPath.Proofs.Store.Slab

/-!
# Stale ids are told from live ones

A heap does not remember the ids that it has given out. All that a slot knows is how often it has
been emptied, and `Dated` says that this is enough: the ids that have been given out are those of an
earlier generation than their slot has now, together with those of the arrays that are alive. It
takes that no slot is emptied so often that its generations come round.
-/

namespace HotPath

namespace Heap

namespace Operation

/-- The id that has to be that of a live array for the operation to go through. -/
def subject? : Operation → Option ArrayId
  | .exportHost (.array id) | .retainValue (.array id) | .releaseValue (.array id) => some id
  | .retain id | .release id | .references id | .elementType id | .length id | .load id _
  | .store id _ _ | .toHost id => some id
  | _ => none

/-- The fault of the operation when its array has been freed already. -/
def staleFault : Operation → ArrayId → Fault
  | .release _, id | .releaseValue _, id => .negativeRefCount id
  | _, id => .invalidHeapId id

/-- The operation takes an index, and can fail over that. -/
def indexes : Operation → Bool
  | .load .. | .store .. => true
  | _ => false

variable {operation : Operation} {h : Heap} {id : ArrayId} {cell : Cell}

/-- No operation goes through without its array. -/
theorem run_of_absent (subject : operation.subject? = some id) (absent : h.find? id = none) :
    operation.run h =
      .error (if h.outdates id then operation.staleFault id else .invalidHeapId id) h := by
  -- All but a release answer alike for outdated ids and unknown ones.
  have plain {α : Type} {action : Action Heap α}
      (refused : action h = .error (.invalidHeapId id) h) (rest : α → Action Heap Answer) :
      (action >>= rest) h =
        .error (if h.outdates id then .invalidHeapId id else .invalidHeapId id) h := by
    rw [Action.bind_of_error refused, ite_self]
  cases operation with
  | allocate | allocateData | importHost | isLive => cases subject
  | exportHost value =>
    cases value <;> cases subject
    exact plain (Action.bind_of_error (inspect_of_absent absent _) _) _
  | retain => cases subject; exact plain (retain_of_absent absent) _
  | retainValue value =>
    cases value <;> cases subject
    exact plain (retain_of_absent absent) _
  | release => cases subject; exact Action.bind_of_error (release_of_absent absent) _
  | releaseValue value =>
    cases value <;> cases subject
    refine Action.bind_of_error ?_ _
    rw [Heap.releaseValue, Action.discard_apply, release_of_absent absent]
    rfl
  | store => cases subject; exact plain (store_of_absent absent _ _) _
  | references | elementType | length | load | toHost =>
    cases subject
    exact plain (inspect_of_absent absent _) _

/-- With its array alive, an operation can fail over nothing but an index or a value to store. -/
theorem run_of_find? (subject : operation.subject? = some id) (found : h.find? id = some cell)
    (positive : 0 < cell.references) :
    (∃ answer after, operation.run h = .ok answer after) ∨
      operation.indexes = true ∧
        ∃ fault, operation.run h = .error fault h ∧ fault.blamesCounting = false := by
  obtain ⟨after, released⟩ := release_of_find? found positive
  have given : (discard (Heap.release id) : Action Heap Unit) h = .ok () after := by
    rw [Action.discard_apply, released]
  cases operation with
  | allocate | allocateData | importHost | isLive => cases subject
  | exportHost value =>
    cases value <;> cases subject
    have exported : Heap.exportHost (.array id) h = .ok (some (.array cell.contents)) after := by
      rw [Heap.exportHost, Heap.toHost, Action.bind_of_ok (inspect_of_find? found _)]
      exact Action.bind_of_ok given _
    exact .inl ⟨_, _, Action.bind_of_ok exported _⟩
  | retain => cases subject; exact .inl ⟨_, _, Action.bind_of_ok (retain_of_find? found) _⟩
  | retainValue value =>
    cases value <;> cases subject
    exact .inl ⟨_, _, Action.bind_of_ok (retain_of_find? found) _⟩
  | release => cases subject; exact .inl ⟨_, _, Action.bind_of_ok released _⟩
  | releaseValue value =>
    cases value <;> cases subject
    exact .inl ⟨_, _, Action.bind_of_ok given _⟩
  | references | elementType | length | toHost =>
    cases subject
    exact .inl ⟨_, _, Action.bind_of_ok (inspect_of_find? found _) _⟩
  | load _ index =>
    cases subject
    cases element : (place? cell.contents index).bind cell.contents.get? with
    | some value =>
      have read : Heap.load id index h = .ok value h := by
        rw [Heap.load, inspect_of_find? found, element]
        rfl
      exact .inl ⟨_, _, Action.bind_of_ok read _⟩
    | none =>
      have refused : Heap.load id index h =
          .error (.arrayIndexOutOfBounds index cell.contents.size) h := by
        rw [Heap.load, inspect_of_find? found, element]
        rfl
      exact .inr ⟨rfl, _, Action.bind_of_error refused _, rfl⟩
  | store _ index value =>
    cases subject
    have stored := store_of_find? found index value
    cases place : storePlace cell.contents index value with
    | ok position =>
      rw [place] at stored
      exact .inl ⟨_, _, Action.bind_of_ok stored _⟩
    | error fault =>
      rw [place] at stored
      exact .inr ⟨rfl, fault, Action.bind_of_error stored _, blamesCounting_of_storePlace place⟩

end Operation

section Generations

variable {h : Heap} {id : ArrayId} {cell : Cell}

/-- The id of a live array has the generation of its slot. -/
theorem generation_of_find? (found : h.find? id = some cell) :
    h.generation id.index = id.generation :=
  generation_of_slot (find?_eq_some_iff.mp found)

/-- The array that is alive in a slot is not outdated. -/
theorem not_outdates_of_find? (found : h.find? id = some cell) : ¬ h.outdates id := by
  rw [outdates, generation_of_find? found]
  exact UInt32.lt_irrefl _

/-- Changing an array in place leaves all generations as they are. -/
theorem generation_modifyCell (h : Heap) (index : Nat) (change : Cell → Cell) (slot : Nat) :
    (h.modifyCell index change).generation slot = h.generation slot := by
  unfold generation modifyCell
  rw [Array.getElem?_modify]
  split
  next same => cases h.slots[slot]? <;> rfl
  next => rfl

/-- A new array leaves all generations as they are, that of its own slot included. -/
theorem generation_allocate (h : Heap) (contents : Elements) (slot : Nat) :
    (h.allocate contents).2.generation slot = h.generation slot := by
  unfold allocate generation
  split
  next =>
    dsimp only
    rw [Array.getElem?_modify]
    split
    next => cases h.slots[slot]? <;> rfl
    next => rfl
  next =>
    dsimp only
    by_cases new : slot = h.slots.size
    · simp [new]
    · simp [Array.getElem?_push, new]

/-- A new id is of the present generation of its slot. -/
theorem allocate_generation (h : Heap) (contents : Elements) :
    (h.allocate contents).1.generation = h.generation (h.allocate contents).1.index := by
  unfold allocate generation
  split
  next => rfl
  next => simp

/-- A slot that has been emptied is of the next generation, and the others are of the one they
had. -/
theorem generation_vacate (found : h.find? id = some cell) (slot : Nat) :
    (h.vacate id.index).generation slot =
      if slot = id.index then id.generation + 1 else h.generation slot := by
  have here := find?_eq_some_iff.mp found
  unfold generation vacate
  rw [Array.getElem?_modify]
  by_cases same : slot = id.index
  · subst same
    simp [here]
  · simp [same, Ne.symm same]

end Generations

namespace Log

/-- An id has been given out if the log says so. -/
theorem mem_issued {log : Log} {id : ArrayId} : id ∈ log.issued ↔ .issued id ∈ log := by
  unfold issued
  rw [List.mem_filterMap]
  constructor
  · rintro ⟨deed, member, names⟩
    cases deed <;> cases names
    exact member
  · exact fun member => ⟨_, member, rfl⟩

/-- What is done later takes no freeing back. -/
theorem frees_append (recent log : Log) (index : Nat) :
    log.frees index ≤ frees (recent ++ log) index := by
  induction recent with
  | nil => exact Nat.le_refl _
  | cons deed recent ih =>
    cases deed with
    | released id => exact Nat.le_trans ih (Nat.le_add_right ..)
    | _ => exact ih

/-- A slot has been freed no more often than there are deeds. -/
theorem frees_le_length (log : Log) (index : Nat) : log.frees index ≤ log.length := by
  induction log with
  | nil => exact Nat.le_refl _
  | cons deed log ih =>
    cases deed with
    | released id =>
      rw [frees, List.length_cons]
      split <;> omega
    | _ => exact Nat.le_succ_of_le ih

end Log

/-- The slots tell which ids have been given out: those that are outdated and those of live
arrays. -/
structure Dated (h : Heap) (log : Log) : Prop where
  generations : ∀ index, (h.generation index).toNat = log.frees index
  given : ∀ id, .issued id ∈ log ↔ h.outdates id ∨ (h.find? id).isSome
  distinct : log.issued.Nodup
  settled : ∀ id, h.outdates id → log.due id = 0

/-- On the empty heap nothing has been done. -/
theorem dated_empty : empty.Dated [] where
  generations := by simp [generation, empty, Log.frees]
  given := by simp [outdates, generation, find?, empty]
  distinct := List.nodup_nil
  settled := by simp [outdates, generation, empty]

namespace Dated

variable {h : Heap} {log : Log} {id : ArrayId} {cell : Cell}

/-- The id of a new array has not been given out before. -/
theorem allocated (dated : h.Dated log) (exact : h.Exact log) (contents : Elements) :
    (h.allocate contents).2.Dated (.issued (h.allocate contents).1 :: log) := by
  have vacant := fun index => (exact.tallied.vacant index).mp
  have outdated (id : ArrayId) : (h.allocate contents).2.outdates id ↔ h.outdates id := by
    rw [outdates, outdates, generation_allocate]
  have current : ¬ h.outdates (h.allocate contents).1 := by
    rw [outdates, allocate_generation]
    exact UInt32.lt_irrefl _
  have unissued : .issued (h.allocate contents).1 ∉ log := by
    rw [dated.given, find?_allocate_id contents vacant]
    exact not_or.mpr ⟨current, Bool.false_ne_true⟩
  constructor
  case generations =>
    intro index
    rw [generation_allocate]
    exact dated.generations index
  case given =>
    intro id
    rw [outdated, find?_allocate contents vacant, List.mem_cons]
    by_cases new : id = (h.allocate contents).1
    · simp [new]
    · simp [new, dated.given]
  case distinct => exact List.nodup_cons.mpr ⟨mt Log.mem_issued.mp unissued, dated.distinct⟩
  case settled =>
    intro id stale
    rw [outdated] at stale
    have different : (h.allocate contents).1 ≠ id := fun same => current (same ▸ stale)
    rw [Log.due_issued_of_ne log different]
    exact dated.settled id stale

/-- A change to one array in place gives out nothing and empties nothing. -/
theorem modified {written : Log} (dated : h.Dated log) (found : h.find? id = some cell)
    (change : Cell → Cell) (issued : written.issued = log.issued)
    (frees : ∀ index, written.frees index = log.frees index)
    (elsewhere : ∀ other, id ≠ other → written.due other = log.due other) :
    (h.modifyCell id.index change).Dated written := by
  have outdated (other : ArrayId) :
      (h.modifyCell id.index change).outdates other ↔ h.outdates other := by
    rw [outdates, outdates, generation_modifyCell]
  constructor
  case generations =>
    intro index
    rw [generation_modifyCell, frees]
    exact dated.generations index
  case given =>
    intro other
    have alive : ((h.modifyCell id.index change).find? other).isSome = (h.find? other).isSome := by
      rw [find?_modifyCell]
      split
      next => exact Option.isSome_map
      next => rfl
    rw [← Log.mem_issued, issued, Log.mem_issued, dated.given, outdated, alive]
  case distinct =>
    rw [issued]
    exact dated.distinct
  case settled =>
    intro other stale
    rw [outdated] at stale
    have different : id ≠ other := fun same => not_outdates_of_find? found (same ▸ stale)
    rw [elsewhere other different]
    exact dated.settled other stale

/-- Emptying a slot outdates the id of the array that was in it, and no other. -/
theorem freed (dated : h.Dated log) (exact : h.Exact log) (found : h.find? id = some cell)
    (last : cell.references = 1) (bounded : Log.frees (.released id :: log) id.index < UInt32.size) :
    (h.vacate id.index).Dated (.released id :: log) := by
  have due : log.due id = 1 := by
    rw [← (exact.counted found).2.1, last]
    rfl
  have generation : id.generation.toNat = log.frees id.index := by
    rw [← generation_of_find? found]
    exact dated.generations id.index
  rw [Log.frees, if_pos ⟨rfl, due⟩] at bounded
  have next : (id.generation + 1).toNat = id.generation.toNat + 1 := by
    rw [UInt32.toNat_add, generation]
    exact Nat.mod_eq_of_lt bounded
  have outdated (other : ArrayId) :
      (h.vacate id.index).outdates other ↔ h.outdates other ∨ other = id := by
    obtain ⟨index, generation⟩ := other
    rw [outdates, outdates, generation_vacate found]
    by_cases same : index = id.index
    · subst same
      rw [if_pos rfl, generation_of_find? found, UInt32.lt_iff_toNat_lt, UInt32.lt_iff_toNat_lt,
        next, Nat.lt_succ_iff_lt_or_eq, UInt32.toNat_inj]
      exact or_congr_right ⟨congrArg (ArrayId.mk id.index), congrArg ArrayId.generation⟩
    · rw [if_neg same]
      exact (or_iff_left fun equal => same (congrArg ArrayId.index equal)).symm
  constructor
  case generations =>
    intro index
    rw [generation_vacate found, Log.frees]
    by_cases same : index = id.index
    · subst same
      rw [if_pos rfl, if_pos ⟨rfl, due⟩, next, generation]
    · rw [if_neg same, if_neg fun both => same both.1.symm]
      exact dated.generations index
  case given =>
    intro other
    rw [outdated, List.mem_cons, or_iff_right Deed.noConfusion, dated.given]
    by_cases same : other = id
    · simp [same, found]
    · rw [find?_vacate_of_ne found same, or_iff_left same]
  case distinct => exact dated.distinct
  case settled =>
    intro other stale
    rcases (outdated other).mp stale with stale | rfl
    · have different : id ≠ other := fun same => not_outdates_of_find? found (same ▸ stale)
      rw [Log.due_released_of_ne log different]
      exact dated.settled other stale
    · rw [Log.due_released, due]
      rfl

/-- As long as no slot is emptied too often, no move makes the slots forget an id. -/
theorem moved {deed? : Option Deed} {after : Heap} (dated : h.Dated log) (exact : h.Exact log)
    (move : h.Move deed? after)
    (bounded : ∀ index, Log.frees (Option.toList deed? ++ log) index < UInt32.size) :
    after.Dated (Option.toList deed? ++ log) := by
  cases move with
  | idle => exact dated
  | issued contents => exact dated.allocated exact contents
  | retained found =>
    exact dated.modified found _ rfl (fun _ => rfl) fun _ => Log.due_retained_of_ne log
  | @shared id _ _ found count =>
    have due : log.due id ≠ 1 := by
      rw [← (exact.counted found).2.1, count]
      omega
    have frees (index : Nat) : Log.frees (.released id :: log) index = log.frees index := by
      rw [Log.frees, if_neg fun last => due last.2, Nat.add_zero]
    exact dated.modified found _ rfl frees fun _ => Log.due_released_of_ne log
  | freed found last => exact dated.freed exact found last (bounded _)
  | stored found accepted => exact dated.modified found _ rfl (fun _ => rfl) fun _ _ => rfl

end Dated

namespace Chronicle

/-- Nothing that has been written down is taken back. -/
theorem log_after (c : Chronicle) (operations : List Operation) :
    ∃ recent, (c.after operations).log = recent ++ c.log := by
  induction operations using List.reverseRecOn with
  | nil => exact ⟨[], rfl⟩
  | append_singleton operations operation ih =>
    obtain ⟨recent, written⟩ := ih
    obtain ⟨deed?, latest, _⟩ := (c.after operations).next_moves operation
    rw [after_concat, latest, written, ← List.append_assoc]
    exact ⟨_, rfl⟩

/-- The generations are those that the log has as long as no slot has been freed too often. -/
theorem dated_after (operations : List Operation)
    (bounded : ∀ index, (blank.after operations).log.frees index < UInt32.size) :
    (blank.after operations).heap.Dated (blank.after operations).log := by
  refine (after_induction
    (fun h log => h.Exact log ∧ ((∀ index, log.frees index < UInt32.size) → h.Dated log))
    ⟨exact_empty, fun _ => dated_empty⟩ ?_ operations).2 bounded
  intro h log deed? after ⟨exact, dated⟩ move
  refine ⟨exact.moved move, fun bounded => ?_⟩
  have earlier (index : Nat) := Nat.lt_of_le_of_lt (Log.frees_append _ log index) (bounded index)
  exact (dated earlier).moved exact move bounded

end Chronicle

section Verdicts

variable {h : Heap} {log : Log} {id : ArrayId}

/-- An id whose slot has moved on finds nothing. -/
theorem find?_of_outdates (outdated : h.outdates id) : h.find? id = none :=
  Option.eq_none_iff_forall_not_mem.mpr fun _ found => not_outdates_of_find? found outdated

/-- An id that has been given back as often as it was given out is outdated. -/
theorem Dated.outdates (dated : h.Dated log) (exact : h.Exact log) (given : .issued id ∈ log)
    (due : log.due id = 0) : h.outdates id := by
  refine ((dated.given id).mp given).resolve_right fun alive => ?_
  obtain ⟨cell, found⟩ := Option.isSome_iff_exists.mp alive
  obtain ⟨_, owed, positive⟩ := exact.counted found
  omega

/-- As the slots only go forward, an id that is outdated remains so. -/
theorem Dated.outdates_later {g : Heap} {recent : Log} (dated : h.Dated log)
    (later : g.Dated (recent ++ log)) (outdated : h.outdates id) : g.outdates id := by
  unfold Heap.outdates at outdated ⊢
  rw [UInt32.lt_iff_toNat_lt] at outdated ⊢
  rw [dated.generations] at outdated
  rw [later.generations]
  exact Nat.lt_of_lt_of_le outdated (Log.frees_append recent log _)

/-- An outdated id is rejected as such by whatever needs its array. -/
theorem rejects_outdated (outdated : h.outdates id) {operation : Operation}
    (subject : operation.subject? = some id) :
    operation.run h = .error (operation.staleFault id) h := by
  rw [Operation.run_of_absent subject (find?_of_outdates outdated), if_pos outdated]

/-- An id that has not been given out is unknown to whatever needs its array. -/
theorem Dated.rejects_unissued (dated : h.Dated log) (unissued : .issued id ∉ log) :
    h.find? id = none ∧ ∀ operation : Operation, operation.subject? = some id →
      operation.run h = .error (.invalidHeapId id) h := by
  rw [dated.given, not_or, Option.not_isSome_iff_eq_none] at unissued
  refine ⟨unissued.2, fun operation subject => ?_⟩
  rw [Operation.run_of_absent subject unissued.2, if_neg unissued.1]

/-- An id that has not been given back as often as it was given out is that of a live array. -/
theorem Dated.accepts (dated : h.Dated log) (given : .issued id ∈ log) (due : log.due id ≠ 0) :
    ∃ cell, h.find? id = some cell := by
  have alive := ((dated.given id).mp given).resolve_left fun outdated =>
    due (dated.settled id outdated)
  exact Option.isSome_iff_exists.mp alive

end Verdicts

namespace Chronicle

/-- Ids can be told apart for ever, as long as no slot is emptied `2 ^ 32` times. No id is given out
twice. An id whose array has been freed is rejected from then on, whatever happens later: by a
release as given back once too often, by all else as invalid. An id that has never been given out
is rejected as invalid. An id whose array has not been freed is accepted by everything that takes
an id; only an index can be out of bounds or a value not fit the array, and a release tells whether
it was the last one that was due. -/
theorem ids_told_apart (operations later : List Operation)
    (bounded : ∀ index, (blank.after (operations ++ later)).log.frees index < UInt32.size) :
    let before := blank.after operations
    let now := blank.after (operations ++ later)
    now.log.issued.Nodup ∧
      (∀ id, .issued id ∈ before.log → before.log.due id = 0 →
        now.heap.isLive id = false ∧ ∀ operation : Operation, operation.subject? = some id →
          operation.run now.heap = .error (operation.staleFault id) now.heap) ∧
      (∀ id, .issued id ∉ now.log →
        now.heap.isLive id = false ∧ ∀ operation : Operation, operation.subject? = some id →
          operation.run now.heap = .error (.invalidHeapId id) now.heap) ∧
      ∀ id, .issued id ∈ now.log → now.log.due id ≠ 0 →
        now.heap.isLive id = true ∧
          (∃ after, release id now.heap = .ok (decide (now.log.due id = 1)) after) ∧
          ∀ operation : Operation, operation.subject? = some id →
            (∃ answer after, operation.run now.heap = .ok answer after) ∨
              operation.indexes = true ∧ ∃ fault,
                operation.run now.heap = .error fault now.heap ∧ fault.blamesCounting = false := by
  intro before now
  have exact : now.heap.Exact now.log := exact_after _
  have dated : now.heap.Dated now.log := dated_after _ bounded
  refine ⟨dated.distinct, fun id given due => ?_, fun id unissued => ?_, fun id given due => ?_⟩
  · obtain ⟨recent, written⟩ := before.log_after later
    rw [← after_append] at written
    have earlier : before.heap.Dated before.log := by
      refine dated_after _ fun index => Nat.lt_of_le_of_lt ?_ (bounded index)
      rw [written]
      exact Log.frees_append recent before.log index
    have outdated : now.heap.outdates id :=
      earlier.outdates_later (written ▸ dated) (earlier.outdates (exact_after _) given due)
    refine ⟨?_, fun operation subject => rejects_outdated outdated subject⟩
    rw [isLive, find?_of_outdates outdated, Option.isSome_none]
  · obtain ⟨absent, rejected⟩ := dated.rejects_unissued unissued
    exact ⟨by rw [isLive, absent, Option.isSome_none], rejected⟩
  · obtain ⟨cell, found⟩ := dated.accepts given due
    obtain ⟨_, owed, positive⟩ := exact.counted found
    obtain ⟨after, released⟩ := release_of_find? found positive
    refine ⟨by rw [isLive, found, Option.isSome_some], ⟨after, ?_⟩, fun operation subject =>
      Operation.run_of_find? subject found positive⟩
    have last : cell.references = 1 ↔ now.log.due id = 1 := by omega
    rw [released, decide_eq_decide.mpr last]

/-- An array is freed and another one takes its slot: the old id is told from the new one. -/
theorem ids_told_apart_recycled :
    let recycled : List Operation := [.allocate .int 1, .release ⟨0, 0⟩, .allocate .bool 2]
    let now := blank.after (recycled ++ [.retain ⟨0, 1⟩])
    (∀ index, now.log.frees index < UInt32.size) ∧ now.log.issued = [⟨0, 1⟩, ⟨0, 0⟩] ∧
      (∀ operation : Operation, operation.subject? = some ⟨0, 0⟩ →
        operation.run now.heap = .error (operation.staleFault ⟨0, 0⟩) now.heap) ∧
      now.heap.isLive ⟨0, 1⟩ = true ∧ now.log.due ⟨0, 1⟩ = 2 := by
  intro recycled now
  have log : now.log = [.retained ⟨0, 1⟩, .issued ⟨0, 1⟩, .released ⟨0, 0⟩, .issued ⟨0, 0⟩] := by
    decide +kernel
  have due : now.log.due ⟨0, 1⟩ = 2 := by
    rw [log]
    decide
  have bounded (index : Nat) : now.log.frees index < UInt32.size := by
    refine Nat.lt_of_le_of_lt (Log.frees_le_length now.log index) ?_
    rw [log]
    decide
  obtain ⟨_, outdated, _, alive⟩ := ids_told_apart recycled [.retain ⟨0, 1⟩] bounded
  refine ⟨bounded, by rw [log]; rfl, ?_, ?_, due⟩
  · exact (outdated ⟨0, 0⟩ (by decide +kernel) (by decide +kernel)).2
  · exact (alive ⟨0, 1⟩ (by decide +kernel) (by decide +kernel)).1

end Chronicle

end Heap

end HotPath
