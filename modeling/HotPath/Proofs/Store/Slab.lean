import HotPath.Proofs.Store.Chronicle

/-!
# The heap keeps its books

`Exact` compares a heap with what is written down of it: every array that is there has been given
out, and is counted as often as its id has been retained and not released since. One lemma for
each kind of move shows that this, with what `Tallied` says of slots and counts, is never lost.
-/

namespace HotPath

namespace Heap

/-- The slots are in order, and the references of every array are those that are written down. -/
structure Exact (h : Heap) (log : Log) : Prop where
  tallied : h.Tallied
  counted : ∀ {id : ArrayId} {cell : Cell}, h.find? id = some cell →
    .issued id ∈ log ∧ (cell.references : Int) = log.due id ∧ 0 < cell.references

/-- The empty heap agrees with the empty log. -/
theorem exact_empty : empty.Exact [] where
  tallied := tallied_empty
  counted := by simp [find?, empty]

namespace Exact

variable {h : Heap} {log : Log} {id : ArrayId} {cell : Cell}

/-- A new array is alive with the one reference that its id has been given out with. -/
theorem allocated (exact : h.Exact log) (contents : Elements) :
    (h.allocate contents).2.Exact (.issued (h.allocate contents).1 :: log) where
  tallied := exact.tallied.allocated contents
  counted := by
    intro id cell found
    rw [find?_allocate contents fun index => (exact.tallied.vacant index).mp] at found
    split at found
    next same =>
      cases found
      subst same
      exact ⟨List.mem_cons_self, (Log.due_issued ..).symm, Nat.one_pos⟩
    next different =>
      obtain ⟨given, owed, positive⟩ := exact.counted found
      rw [Log.due_issued_of_ne _ (Ne.symm different)]
      exact ⟨List.mem_cons_of_mem _ given, owed, positive⟩

/-- An array changes in place, and what is written down accounts for its references. -/
theorem modified {written : Log} {change : Cell → Cell} (exact : h.Exact log)
    (found : h.find? id = some cell) (kept : log ⊆ written)
    (owed : ((change cell).references : Int) = written.due id)
    (positive : 0 < (change cell).references)
    (elsewhere : ∀ other, id ≠ other → written.due other = log.due other) :
    (h.modifyCell id.index change).Exact written where
  tallied := exact.tallied.modified found change
  counted := by
    intro other otherCell otherFound
    by_cases same : id = other
    · subst same
      rw [find?_modifyCell, if_pos rfl, found] at otherFound
      cases otherFound
      exact ⟨kept (exact.counted found).1, owed, positive⟩
    · rw [find?_modifyCell_of_ne found (Ne.symm same)] at otherFound
      obtain ⟨given, owed, positive⟩ := exact.counted otherFound
      rw [elsewhere other same]
      exact ⟨kept given, owed, positive⟩

/-- A new reference is one more that the id owes. -/
theorem retained (exact : h.Exact log) (found : h.find? id = some cell) :
    (h.modifyCell id.index fun cell => { cell with references := cell.references + 1 }).Exact
      (.retained id :: log) := by
  obtain ⟨_, owed, _⟩ := exact.counted found
  refine exact.modified found (List.subset_cons_self ..) ?_ (Nat.succ_pos _) fun _ =>
    Log.due_retained_of_ne log
  rw [Log.due_retained, ← owed]
  rfl

/-- A reference that is given back while others are left is one less that the id owes. -/
theorem shared {references : Nat} (exact : h.Exact log) (found : h.find? id = some cell)
    (count : cell.references = references + 2) :
    (h.modifyCell id.index fun cell => { cell with references := references + 1 }).Exact
      (.released id :: log) := by
  obtain ⟨_, owed, _⟩ := exact.counted found
  refine exact.modified found (List.subset_cons_self ..) ?_ (Nat.succ_pos _) fun _ =>
    Log.due_released_of_ne log
  rw [Log.due_released, ← owed, count]
  exact (Int.add_sub_cancel (↑(references + 1)) 1).symm

/-- An array is gone once its id owes nothing. -/
theorem freed (exact : h.Exact log) (found : h.find? id = some cell) :
    (h.vacate id.index).Exact (.released id :: log) where
  tallied := exact.tallied.vacated found
  counted := by
    intro other otherCell otherFound
    have different : id ≠ other := by
      rintro rfl
      rw [find?_vacate, if_pos rfl] at otherFound
      cases otherFound
    rw [find?_vacate_of_ne found (Ne.symm different)] at otherFound
    obtain ⟨given, owed, positive⟩ := exact.counted otherFound
    rw [Log.due_released_of_ne log different]
    exact ⟨List.mem_cons_of_mem _ given, owed, positive⟩

/-- Changing an element is no business of the log. -/
theorem stored (exact : h.Exact log) (found : h.find? id = some cell) (place : Nat)
    (value : Value) :
    (h.modifyCell id.index fun cell =>
      { cell with contents := cell.contents.set place value }).Exact log := by
  obtain ⟨_, owed, positive⟩ := exact.counted found
  exact exact.modified found (List.Subset.refl _) owed positive fun _ _ => rfl

/-- Whatever is done to the heap, what is written down of it accounts for it. -/
theorem moved {deed? : Option Deed} {after : Heap} (exact : h.Exact log)
    (move : h.Move deed? after) : after.Exact (Option.toList deed? ++ log) := by
  cases move with
  | idle => exact exact
  | issued contents => exact exact.allocated contents
  | retained found => exact exact.retained found
  | shared found count => exact exact.shared found count
  | freed found last => exact exact.freed found
  | stored found accepted => exact exact.stored found _ _

end Exact

/-- The heap agrees with the log after any operations. -/
theorem Chronicle.exact_after (operations : List Operation) :
    (blank.after operations).heap.Exact (blank.after operations).log :=
  after_induction Exact exact_empty (fun exact move => exact.moved move) operations

section Counts

variable {h : Heap}

/-- The peak goes up exactly when more arrays are alive than ever before. -/
theorem Move.peak {deed? : Option Deed} {after : Heap} (move : h.Move deed? after)
    (topped : h.counts.live ≤ h.counts.peak) :
    after.counts.peak = max h.counts.peak after.counts.live := by
  cases move with
  | issued contents => rw [counts_allocate, HeapCounts.allocated]
  | freed found last =>
    exact (Nat.max_eq_left (Nat.le_trans (Nat.sub_le ..) topped)).symm
  | _ => exact (Nat.max_eq_left topped).symm

/-- Taking an array off never takes away from a count that is zero. -/
theorem Tallied.live_vacate (tallied : h.Tallied) {id : ArrayId} {cell : Cell}
    (found : h.find? id = some cell) :
    (h.vacate id.index).counts.live + 1 = h.counts.live := by
  have before := tallied.freed
  have after := (tallied.vacated found).freed
  simp only [vacate, HeapCounts.freed] at after ⊢
  omega

end Counts

namespace Chronicle

/-- The peak is the largest number of arrays that were alive after any of the operations. -/
theorem peak_after (operations : List Operation) :
    (∀ earlier, earlier <+: operations → (blank.after earlier).heap.counts.live ≤
        (blank.after operations).heap.counts.peak) ∧
      ∃ earlier, earlier <+: operations ∧ (blank.after earlier).heap.counts.live =
        (blank.after operations).heap.counts.peak := by
  induction operations using List.reverseRecOn with
  | nil =>
    refine ⟨fun earlier start => ?_, [], List.prefix_rfl, rfl⟩
    rw [List.prefix_nil.mp start]
    exact Nat.le_refl 0
  | append_singleton operations operation ih =>
    obtain ⟨bound, earlier, start, attained⟩ := ih
    obtain ⟨deed?, _, move⟩ := (blank.after operations).next_moves operation
    have peak := move.peak (bound operations List.prefix_rfl)
    rw [← after_concat] at peak
    constructor
    · intro earlier start
      rw [peak]
      rcases List.prefix_concat_iff.mp start with rfl | start
      · exact Nat.le_max_right ..
      · exact Nat.le_trans (bound earlier start) (Nat.le_max_left ..)
    · rw [peak]
      rcases Nat.le_total (blank.after (operations ++ [operation])).heap.counts.live
        (blank.after operations).heap.counts.peak with older | newer
      · rw [Nat.max_eq_left older]
        exact ⟨earlier, start.trans (List.prefix_append ..), attained⟩
      · rw [Nat.max_eq_right newer]
        exact ⟨operations ++ [operation], List.prefix_rfl, rfl⟩

/-- Whatever has been asked of a heap, the free list names exactly the empty slots, each once. The
array in a slot has one reference from when it was allocated, one more for every time it has been
retained since and one less for every time it has been released, and always one at least. The
counts are right: of the arrays that are alive, of the difference between allocations and frees,
and of the most that were ever alive, and freeing an array finds one to take off. An operation that
faults leaves everything as it was. -/
theorem books_kept (operations : List Operation) :
    let c := blank.after operations
    c.heap.free.Nodup ∧
      (∀ index, index ∈ c.heap.free ↔ ∃ generation, c.heap.slots[index]? = some ⟨generation, none⟩) ∧
      (∀ index generation cell, c.heap.slots[index]? = some ⟨generation, some cell⟩ →
        .issued ⟨index, generation⟩ ∈ c.log ∧
          (cell.references : Int) = c.log.due ⟨index, generation⟩ ∧ 1 ≤ cell.references) ∧
      c.heap.counts.live = c.heap.occupied ∧
      c.heap.counts.allocations = c.heap.counts.live + c.heap.counts.frees ∧
      (∀ id after, release id c.heap = .ok true after →
        after.counts.live + 1 = c.heap.counts.live) ∧
      ((∀ earlier, earlier <+: operations →
          (blank.after earlier).heap.counts.live ≤ c.heap.counts.peak) ∧
        ∃ earlier, earlier <+: operations ∧
          (blank.after earlier).heap.counts.live = c.heap.counts.peak) ∧
      ∀ (operation : Operation) fault after, operation.run c.heap = .error fault after →
        after = c.heap := by
  intro c
  have exact : c.heap.Exact c.log := exact_after operations
  have tallied := exact.tallied
  refine ⟨tallied.distinct, tallied.vacant, ?_, tallied.live, tallied.freed, ?_,
    peak_after operations, ?_⟩
  · intro index generation cell slot
    have found : c.heap.find? ⟨index, generation⟩ = some cell := find?_eq_some_iff.mpr slot
    exact exact.counted found
  · intro id after freed
    rcases c.heap.release_cases id with
      ⟨fault, refused⟩ | ⟨cell, found, _, emptied⟩ | ⟨cell, references, _, _, shared⟩
    · rw [refused] at freed
      cases freed
    · rw [emptied] at freed
      cases freed
      exact tallied.live_vacate found
    · rw [shared] at freed
      cases freed
  · intro operation fault after faulted
    exact operation.unchanged_of_error faulted

/-- One slot for two arrays: only the second of them is alive, and no two ever were. -/
example :
    (blank.after [.allocate .int 1, .retain ⟨0, 0⟩, .release ⟨0, 0⟩, .release ⟨0, 0⟩,
        .release ⟨0, 0⟩, .allocate .bool 2]).heap.counts =
      { live := 1, peak := 1, allocations := 2, frees := 1 } := by
  decide +kernel

end Chronicle

end Heap

end HotPath
