import HotPath.Proofs.Store.Balance

/-!
# Twin heaps

Two executions that do the same on heaps with different histories get different ids for
their arrays. `Heap.Twins past h g held` is what the two heaps have in common all the same.
The list `held` pairs what the one execution holds with what the other one holds. Paired
values are equal except for the names of arrays, the pairs match these names one to one, and
what an array holds is the same under both its names. The first heap has `past` behind it,
and since then as many arrays have been put on the one as on the other, and taken off.

Each operation of the heap does the same to both. It has the same outcome, and the heaps that
it leaves are twins again. The free lists and the generations of the slots play no part in
this, which is why the relation does not mention them.
-/

namespace HotPath

/-- Values of two executions, those that stand for the same thing side by side. -/
abbrev Pairs := List (Value × Value)

namespace Value

/-- The values are the same except for the names of arrays. -/
inductive Like : Value → Value → Prop where
  | plain {value : Value} (plain : value.isReference = false) : Like value value
  | array (id other : ArrayId) : Like (.array id) (.array other)

/-- A value goes together with itself. -/
theorem Like.refl (value : Value) : value.Like value := by
  cases value with
  | array id => exact .array id id
  | _ => exact .plain rfl

/-- Values that go together have the same shape. -/
theorem Like.shape {value other : Value} (like : value.Like other) : value.shape = other.shape := by
  cases like <;> rfl

end Value

namespace Heap

section Allocate

variable {h : Heap}

/-- A new array is one more that has been allocated. -/
theorem allocations_allocate (contents : Elements) :
    (h.allocate contents).2.counts.allocations = h.counts.allocations + 1 := by
  rw [counts_allocate]
  rfl

/-- A new array frees none. -/
theorem frees_allocate (contents : Elements) :
    (h.allocate contents).2.counts.frees = h.counts.frees := by
  rw [counts_allocate]
  rfl

end Allocate

/-- The heaps hold the same arrays for two executions that hold these values, and the same has
happened to both since the first one had `past` behind it. -/
structure Twins (past : HeapCounts) (h g : Heap) (held : Pairs) : Prop where
  left : h.Balanced (held.map Prod.fst)
  right : g.Balanced (held.map Prod.snd)
  like : ∀ pair ∈ held, pair.1.Like pair.2
  same : ∀ {a b : ArrayId}, (.array a, .array b) ∈ held → h.find? a = g.find? b
  matched : ∀ {a b c d : ArrayId}, (.array a, .array b) ∈ held → (.array c, .array d) ∈ held →
    (a = c ↔ b = d)
  allocations : h.counts.allocations = past.allocations + g.counts.allocations
  frees : h.counts.frees = past.frees + g.counts.frees

namespace Twins

variable {past : HeapCounts} {h g : Heap} {held others : Pairs} {a b : ArrayId}

/-- Less to be held is less to be said. -/
theorem of_subset (twins : Twins past h g held) (fewer : others ⊆ held)
    (left : h.Balanced (others.map Prod.fst)) (right : g.Balanced (others.map Prod.snd)) :
    Twins past h g others where
  left := left
  right := right
  like pair member := twins.like pair (fewer member)
  same member := twins.same (fewer member)
  matched member other := twins.matched (fewer member) (fewer other)
  allocations := twins.allocations
  frees := twins.frees

/-- The order in which the values are listed does not matter. -/
theorem of_perm (twins : Twins past h g held) (perm : others.Perm held) : Twins past h g others :=
  twins.of_subset perm.subset (twins.left.of_perm (perm.map _)) (twins.right.of_perm (perm.map _))

/-- Which hands hold the pairs does not matter. -/
theorem of_count_eq (twins : Twins past h g held)
    (counts : ∀ pair, others.count pair = held.count pair) : Twins past h g others :=
  twins.of_perm (List.perm_iff_count.mpr counts)

/-- Values that are no references do not count. -/
theorem cons_iff_of_not_reference {value : Value} (plain : value.isReference = false) :
    Twins past h g ((value, value) :: held) ↔ Twins past h g held := by
  have unnamed {c d : ArrayId} (member : (.array c, .array d) ∈ (value, value) :: held) :
      (.array c, .array d) ∈ held := by
    rcases List.mem_cons.mp member with here | there
    · cases here
      cases plain
    · exact there
  constructor
  · intro twins
    exact twins.of_subset (List.subset_cons_self _ _)
      ((Balanced.cons_iff_of_not_reference plain).mp twins.left)
      ((Balanced.cons_iff_of_not_reference plain).mp twins.right)
  · intro twins
    constructor
    case left => exact (Balanced.cons_iff_of_not_reference plain).mpr twins.left
    case right => exact (Balanced.cons_iff_of_not_reference plain).mpr twins.right
    case like =>
      intro pair member
      rcases List.mem_cons.mp member with rfl | there
      · exact .plain plain
      · exact twins.like pair there
    case same => exact fun member => twins.same (unnamed member)
    case matched => exact fun member other => twins.matched (unnamed member) (unnamed other)
    case allocations => exact twins.allocations
    case frees => exact twins.frees

/-- Empty slots do not count. -/
theorem replicate_null_iff (count : Nat) :
    Twins past h g (List.replicate count (.null, .null) ++ held) ↔ Twins past h g held := by
  induction count with
  | zero => rfl
  | succ count ih =>
    rw [List.replicate_succ, List.cons_append, cons_iff_of_not_reference rfl]
    exact ih

/-- The cell that an array has under both its names. -/
theorem cell (twins : Twins past h g held) (member : (.array a, .array b) ∈ held) :
    ∃ cell, h.find? a = some cell ∧ g.find? b = some cell := by
  obtain ⟨cell, found⟩ := twins.left.live (List.mem_map_of_mem (f := Prod.fst) member)
  exact ⟨cell, found, twins.same member ▸ found⟩

/-- The names are matched, so that what differs from the one name differs from the other. -/
theorem ne_iff (twins : Twins past h g held) {c d : ArrayId}
    (member : (.array a, .array b) ∈ held) (other : (.array c, .array d) ∈ held) :
    c ≠ a ↔ d ≠ b :=
  not_congr (twins.matched other member)

/-- A change to the array of one pair, on both heaps. -/
theorem changed {after afterwards : Heap} (twins : Twins past h g held)
    (member : (.array a, .array b) ∈ held) (fewer : others ⊆ held)
    (left : after.Balanced (others.map Prod.fst))
    (right : afterwards.Balanced (others.map Prod.snd))
    (here : after.find? a = afterwards.find? b)
    (away : ∀ c, c ≠ a → after.find? c = h.find? c)
    (faraway : ∀ d, d ≠ b → afterwards.find? d = g.find? d)
    (allocations : after.counts.allocations = past.allocations + afterwards.counts.allocations)
    (frees : after.counts.frees = past.frees + afterwards.counts.frees) :
    Twins past after afterwards others where
  left := left
  right := right
  like pair member := twins.like pair (fewer member)
  same {c d} other := by
    by_cases same : c = a
    · have names := (twins.matched (fewer other) member).mp same
      rw [same, names]
      exact here
    · have names := (twins.ne_iff member (fewer other)).mp same
      rw [away c same, faraway d names]
      exact twins.same (fewer other)
  matched member other := twins.matched (fewer member) (fewer other)
  allocations := allocations
  frees := frees

/-- A change of the cell of one pair in place. -/
theorem modifyCell {cell : Cell} {change : Cell → Cell} (twins : Twins past h g held)
    (member : (.array a, .array b) ∈ held) (found : h.find? a = some cell)
    (foundToo : g.find? b = some cell) (fewer : others ⊆ held)
    (left : (h.modifyCell a.index change).Balanced (others.map Prod.fst))
    (right : (g.modifyCell b.index change).Balanced (others.map Prod.snd)) :
    Twins past (h.modifyCell a.index change) (g.modifyCell b.index change) others := by
  refine twins.changed member fewer left right ?_ ?_ ?_ twins.allocations twins.frees
  · rw [find?_modifyCell, find?_modifyCell, if_pos rfl, if_pos rfl, found, foundToo]
  · exact fun c different => find?_modifyCell_of_ne found different change
  · exact fun d different => find?_modifyCell_of_ne foundToo different change

/-- The two names of a new array are those of no array that is held. -/
theorem allocate (twins : Twins past h g held) (contents : Elements) :
    Twins past (h.allocate contents).2 (g.allocate contents).2
      ((.array (h.allocate contents).1, .array (g.allocate contents).1) :: held) := by
  have fresh := find?_allocate_id contents twins.left.freeVacant
  have freshToo := find?_allocate_id contents twins.right.freeVacant
  have finds := find?_allocate contents twins.left.freeVacant
  have findsToo := find?_allocate contents twins.right.freeVacant
  -- What is held is alive, and the new names were those of no live array.
  have other {c d : ArrayId} (member : (.array c, .array d) ∈ held) :
      c ≠ (h.allocate contents).1 ∧ d ≠ (g.allocate contents).1 := by
    obtain ⟨cell, found, foundToo⟩ := twins.cell member
    constructor
    · rintro rfl
      rw [fresh] at found
      cases found
    · rintro rfl
      rw [freshToo] at foundToo
      cases foundToo
  constructor
  case left => exact twins.left.allocate contents
  case right => exact twins.right.allocate contents
  case like =>
    intro pair member
    rcases List.mem_cons.mp member with rfl | there
    · exact .array _ _
    · exact twins.like pair there
  case same =>
    intro c d member
    rw [finds, findsToo]
    rcases List.mem_cons.mp member with here | there
    · cases here
      rw [if_pos rfl, if_pos rfl]
    · obtain ⟨different, differentToo⟩ := other there
      rw [if_neg different, if_neg differentToo]
      exact twins.same there
  case matched =>
    intro c d e f member otherMember
    rcases List.mem_cons.mp member with here | there <;>
      rcases List.mem_cons.mp otherMember with otherHere | otherThere
    · cases here
      cases otherHere
      exact iff_of_true rfl rfl
    · cases here
      obtain ⟨different, differentToo⟩ := other otherThere
      exact iff_of_false different.symm differentToo.symm
    · cases otherHere
      obtain ⟨different, differentToo⟩ := other there
      exact iff_of_false different differentToo
    · exact twins.matched there otherThere
  case allocations =>
    rw [allocations_allocate, allocations_allocate, twins.allocations, Nat.add_assoc]
  case frees => rw [frees_allocate, frees_allocate, twins.frees]

/-- A reference to a held array can be added on both heaps. -/
theorem retainValue {value other : Value} (twins : Twins past h g held)
    (member : (value, other) ∈ held) :
    ∃ after afterwards, Heap.retainValue value h = .ok () after ∧
      Heap.retainValue other g = .ok () afterwards ∧
      Twins past after afterwards ((value, other) :: held) := by
  have like : value.Like other := twins.like _ member
  cases like with
  | plain plain =>
    have idle : ∀ heap, Heap.retainValue value heap = .ok () heap := by
      intro heap
      cases value <;> first | rfl | cases plain
    exact ⟨h, g, idle h, idle g, (cons_iff_of_not_reference plain).mpr twins⟩
  | array a b =>
    obtain ⟨cell, found, foundToo⟩ := twins.cell member
    obtain ⟨after, retained, left⟩ :=
      twins.left.retain (List.mem_map_of_mem (f := Prod.fst) member)
    obtain ⟨afterwards, retainedToo, right⟩ :=
      twins.right.retain (List.mem_map_of_mem (f := Prod.snd) member)
    refine ⟨after, afterwards, retained, retainedToo, ?_⟩
    rw [retain_of_find? found] at retained
    rw [retain_of_find? foundToo] at retainedToo
    cases retained
    cases retainedToo
    exact twins.modifyCell member found foundToo
      (List.cons_subset.mpr ⟨member, List.Subset.refl held⟩) left right

/-- A reference to a held array can be given back on both heaps, which frees the array on both or
on none. -/
theorem release (twins : Twins past h g ((.array a, .array b) :: held)) :
    ∃ freed after afterwards, Heap.release a h = .ok freed after ∧
      Heap.release b g = .ok freed afterwards ∧ Twins past after afterwards held := by
  have member : (Value.array a, Value.array b) ∈ (.array a, .array b) :: held :=
    List.mem_cons_self
  have fewer : held ⊆ (.array a, .array b) :: held := List.subset_cons_self _ _
  obtain ⟨cell, found, foundToo⟩ := twins.cell member
  have positive := (twins.left.counted found).2
  obtain ⟨freed, after, released, left⟩ := twins.left.release
  obtain ⟨freedToo, afterwards, releasedToo, right⟩ := twins.right.release
  match count : cell.references with
  | 0 => exact absurd (count ▸ positive) (Nat.lt_irrefl 0)
  | 1 =>
    rw [release_last found count] at released
    rw [release_last foundToo count] at releasedToo
    cases released
    cases releasedToo
    refine ⟨true, _, _, release_last found count, release_last foundToo count, ?_⟩
    refine twins.changed member fewer left right ?_ ?_ ?_ twins.allocations ?_
    · rw [find?_vacate, find?_vacate, if_pos rfl, if_pos rfl]
    · exact fun c different => find?_vacate_of_ne found different
    · exact fun d different => find?_vacate_of_ne foundToo different
    · exact congrArg (· + 1) twins.frees
  | references + 2 =>
    rw [release_shared found count] at released
    rw [release_shared foundToo count] at releasedToo
    cases released
    cases releasedToo
    exact ⟨false, _, _, release_shared found count, release_shared foundToo count,
      twins.modifyCell member found foundToo fewer left right⟩

/-- What a held value holds can be given back on both heaps. -/
theorem releaseValue {value other : Value} (twins : Twins past h g ((value, other) :: held)) :
    ∃ after afterwards, Heap.releaseValue value h = .ok () after ∧
      Heap.releaseValue other g = .ok () afterwards ∧ Twins past after afterwards held := by
  have like : value.Like other := twins.like _ List.mem_cons_self
  cases like with
  | plain plain =>
    have idle : ∀ heap, Heap.releaseValue value heap = .ok () heap := by
      intro heap
      cases value <;> first | rfl | cases plain
    exact ⟨h, g, idle h, idle g, (cons_iff_of_not_reference plain).mp twins⟩
  | array a b =>
    obtain ⟨freed, after, afterwards, released, releasedToo, twins⟩ := twins.release
    refine ⟨after, afterwards, ?_, ?_, twins⟩
    · change (discard (Heap.release a) : Action Heap Unit) h = _
      rw [Action.discard_apply, released]
    · change (discard (Heap.release b) : Action Heap Unit) g = _
      rw [Action.discard_apply, releasedToo]

/-- What held values hold can be given back one after another on both heaps. -/
theorem releaseEach {values : Pairs} (twins : Twins past h g (values ++ held)) :
    ∃ after afterwards, Heap.releaseEach (values.map Prod.fst) h = .ok () after ∧
      Heap.releaseEach (values.map Prod.snd) g = .ok () afterwards ∧
      Twins past after afterwards held := by
  induction values generalizing h g with
  | nil => exact ⟨h, g, rfl, rfl, twins⟩
  | cons pair rest ih =>
    obtain ⟨between, meanwhile, first, firstToo, twins⟩ := twins.releaseValue
    obtain ⟨after, afterwards, others, othersToo, twins⟩ := ih twins
    refine ⟨after, afterwards, ?_, ?_, twins⟩
    · simp only [List.map_cons, Heap.releaseEach, Action.both, first, others]
    · simp only [List.map_cons, Heap.releaseEach, Action.both, firstToo, othersToo]

/-- A held array reads the same on both heaps. -/
theorem inspect {α : Type} (twins : Twins past h g held) (member : (.array a, .array b) ∈ held)
    (read : Cell → Except Fault α) : ∃ cell, Heap.inspect a read h = Action.settle (read cell) h ∧
      Heap.inspect b read g = Action.settle (read cell) g := by
  obtain ⟨cell, found, foundToo⟩ := twins.cell member
  exact ⟨cell, inspect_of_find? found read, inspect_of_find? foundToo read⟩

/-- Whether a value can be stored does not depend on the name of an array. -/
theorem storePlace_eq {value other : Value} (like : value.Like other) (contents : Elements)
    (index : Int64) : storePlace contents index value = storePlace contents index other := by
  cases like with
  | plain => rfl
  | array c d => cases contents <;> rfl

/-- Storing does the same on both heaps, or is refused on both for the same reason. -/
theorem store {value other : Value} (twins : Twins past h g held)
    (member : (.array a, .array b) ∈ held) (like : value.Like other) (index : Int64) :
    (∃ after afterwards, Heap.store a index value h = .ok () after ∧
        Heap.store b index other g = .ok () afterwards ∧ value.isReference = false ∧
        Twins past after afterwards held) ∨
      ∃ fault, Heap.store a index value h = .error fault h ∧
        Heap.store b index other g = .error fault g := by
  obtain ⟨cell, found, foundToo⟩ := twins.cell member
  have stored := store_of_find? found index value
  have storedToo := store_of_find? foundToo index other
  rw [← storePlace_eq like] at storedToo
  cases place : storePlace cell.contents index value with
  | error fault =>
    rw [place] at stored storedToo
    exact .inr ⟨fault, stored, storedToo⟩
  | ok position =>
    rw [place] at stored storedToo
    -- What has been accepted is no reference, and so it is the same value for both.
    have plain := isReference_of_storePlace place
    cases like with
    | array => cases plain
    | plain =>
      obtain ⟨counted, positive⟩ := twins.left.counted found
      obtain ⟨countedToo, _⟩ := twins.right.counted foundToo
      exact .inl ⟨_, _, stored, storedToo, plain,
        twins.modifyCell member found foundToo (List.Subset.refl held)
          (twins.left.modifyCell found counted positive fun _ _ => rfl)
          (twins.right.modifyCell foundToo countedToo positive fun _ _ => rfl)⟩

/-- Host values become the same values on both heaps. -/
theorem importAll (twins : Twins past h g held) (values : List HostValue) :
    ∃ imported : Pairs, (h.importAll values).1 = imported.map Prod.fst ∧
      (g.importAll values).1 = imported.map Prod.snd ∧
      Twins past (h.importAll values).2 (g.importAll values).2 (imported ++ held) := by
  induction values generalizing h g held with
  | nil => exact ⟨[], rfl, rfl, twins⟩
  | cons value rest ih =>
    have first : Twins past (h.importHost value).2 (g.importHost value).2
        (((h.importHost value).1, (g.importHost value).1) :: held) := by
      cases value with
      | array contents => exact twins.allocate contents
      | _ => exact (cons_iff_of_not_reference rfl).mpr twins
    obtain ⟨imported, left, right, twins⟩ := ih first
    refine ⟨((h.importHost value).1, (g.importHost value).1) :: imported,
      congrArg (List.cons _) left, congrArg (List.cons _) right, ?_⟩
    exact twins.of_perm List.perm_middle.symm

/-- The host gets the same for both values. -/
theorem exportHost {value other : Value} (twins : Twins past h g ((value, other) :: held)) :
    ∃ answer after afterwards, Heap.exportHost value h = .ok answer after ∧
      Heap.exportHost other g = .ok answer afterwards ∧ Twins past after afterwards held := by
  have like : value.Like other := twins.like _ List.mem_cons_self
  cases like with
  | plain plain =>
    have rest := (cons_iff_of_not_reference plain).mp twins
    cases value with
    | array id => cases plain
    | _ => exact ⟨_, h, g, rfl, rfl, rest⟩
  | array a b =>
    obtain ⟨cell, read, readToo⟩ := twins.inspect (α := HostValue) List.mem_cons_self
      fun cell => .ok (.array cell.contents)
    obtain ⟨freed, after, afterwards, released, releasedToo, rest⟩ := twins.release
    refine ⟨some (.array cell.contents), after, afterwards, ?_, ?_, rest⟩
    · simp only [Heap.exportHost, toHost, Action.bind_apply, read, Action.settle, Action.ofExcept,
        Action.discard_apply, released, Action.pure_apply]
    · simp only [Heap.exportHost, toHost, Action.bind_apply, readToo, Action.settle,
        Action.ofExcept, Action.discard_apply, releasedToo, Action.pure_apply]

end Twins

end Heap

end HotPath
