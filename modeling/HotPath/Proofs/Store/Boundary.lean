import HotPath.Proofs.Store.Access
import Mathlib.Data.List.Forall2

/-!
# Into the heap and out again

Host values are imported, other things happen on the heap, and then the values are exported, in an
order of their own. `Imports` and `Exports` say of every step of this what it does to the array that
goes in or out, and that no other array notices.

What happens in between may be anything that leaves the imported arrays alone, which `Elsewhere`
says of the changes that it brings about. An array keeps its id for as long as it is there, so that
new arrays come into slots of their own, and `Stands` is what is known of an imported array all
the time.
-/

namespace HotPath

/-- Whether the value is put on the heap when it is imported. -/
def HostValue.isArray : HostValue → Bool
  | .array _ => true
  | _ => false

namespace Heap

/-- The ids among some values. -/
def arrayIds (values : List Value) : List ArrayId := values.filterMap Value.asArray?

/-- The array whose references or elements the operation is to change. -/
def Operation.changes? : Operation → Option ArrayId
  | .exportHost (.array id) | .retainValue (.array id) | .releaseValue (.array id) => some id
  | .retain id | .release id | .store id _ _ => some id
  | _ => none

/-- No array but the one that the value names notices the difference: what the heap has under its
id, if it has anything, is the same as before. -/
def Spares (h after : Heap) (value : Value) : Prop :=
  ∀ other, .array other ≠ value → after.find? other = h.find? other

/-- Host values are imported one after another. -/
inductive Imports [Numbering] : Heap → List HostValue → List Value → Heap → Prop where
  | done {h : Heap} : Imports h [] [] h
  | step {h after : Heap} {host : HostValue} {hosts : List HostValue} {values : List Value}
    (spared : h.Spares (h.importHost host).2 (h.importHost host).1)
    (counted : (h.importHost host).2.counts =
      if host.isArray then h.counts.allocated else h.counts)
    (rest : Imports (h.importHost host).2 hosts values after) :
    Imports h (host :: hosts) ((h.importHost host).1 :: values) after

/-- Host values are imported one after another into a heap whose ids have 32 bits for the number of
a slot. -/
abbrev Narrow.Imports := @Heap.Imports .low32

/-- Values are exported one after another, each as the host value beside it. -/
inductive Exports : Heap → List (Value × HostValue) → Heap → Prop where
  | done {h : Heap} : Exports h [] h
  | step {h between after : Heap} {value : Value} {host : HostValue}
    {pairs : List (Value × HostValue)}
    (exported : exportHost value h = .ok (some host) between)
    (spared : h.Spares between value)
    (counted : between.counts = if host.isArray then h.counts.freed else h.counts)
    (rest : Exports between pairs after) : Exports h ((value, host) :: pairs) after

/-- The value stands for the host value. If that is an array, it is on the heap with the one
reference that the value holds. -/
inductive Stands (h : Heap) : Value → HostValue → Prop where
  | int (n : Int64) : Stands h (.int n) (.int n)
  | float (x : Double) : Stands h (.float x) (.float x)
  | bool (b : Bool) : Stands h (.bool b) (.bool b)
  | array {id : ArrayId} {contents : Elements} (found : h.find? id = some ⟨contents, 1⟩) :
    Stands h (.array id) (.array contents)

/-- An elementary change of a heap that has nothing to do with one array. -/
inductive Elsewhere (id : ArrayId) (h : Heap) : Heap → Prop where
  | allocated (contents : Elements) : Elsewhere id h (h.allocate contents).2
  | modified {other : ArrayId} {cell : Cell} (found : h.find? other = some cell)
    (different : other ≠ id) (change : Cell → Cell) :
    Elsewhere id h (h.modifyCell other.index change)
  | vacated {other : ArrayId} {cell : Cell} (found : h.find? other = some cell)
    (different : other ≠ id) : Elsewhere id h (h.vacate other.index)

section Spared

variable {h after : Heap} {id : ArrayId} {cell : Cell}

/-- A change elsewhere is a change of the heap. -/
theorem Elsewhere.change (changed : Elsewhere id h after) : h.Change after := by
  cases changed with
  | allocated contents => exact .allocated contents
  | modified found _ change => exact .modified found change
  | vacated found _ => exact .vacated found

/-- A change elsewhere leaves an array that is there as it is. -/
theorem Elsewhere.find? (changed : Elsewhere id h after) (tallied : h.Tallied)
    (found : h.find? id = some cell) : after.find? id = some cell := by
  cases changed with
  | allocated contents => exact find?_allocate_of_find? tallied contents found
  | modified there different change =>
    rwa [find?_modifyCell_of_ne there different.symm]
  | vacated there different =>
    rwa [find?_vacate_of_ne there different.symm]

/-- An array stays as it is, however much happens elsewhere. -/
theorem find?_of_elsewhere (changes : Relation.ReflTransGen (Elsewhere id) h after)
    (tallied : h.Tallied) (found : h.find? id = some cell) :
    after.Tallied ∧ after.find? id = some cell := by
  induction changes with
  | refl => exact ⟨tallied, found⟩
  | tail _ changed ih => exact ⟨ih.1.change changed.change, changed.find? ih.1 ih.2⟩

end Spared

section Between

open HotPath.Action

variable {id other : ArrayId}

/-- A new reference to one array has nothing to do with another. -/
theorem retain_elsewhere (different : other ≠ id) : Takes (Elsewhere id) (retain other) := by
  intro h
  unfold Action.after
  rcases h.retain_cases other with ⟨fault, refused⟩ | ⟨cell, found, retained⟩
  · rw [refused]
  · rw [retained]
    exact .single (.modified found different _)

/-- Giving back one array has nothing to do with another. -/
theorem release_elsewhere (different : other ≠ id) : Takes (Elsewhere id) (release other) := by
  intro h
  unfold Action.after
  rcases h.release_cases other with
    ⟨fault, refused⟩ | ⟨cell, found, _, freed⟩ | ⟨cell, references, found, _, shared⟩
  · rw [refused]
  · rw [freed]
    exact .single (.vacated found different)
  · rw [shared]
    exact .single (.modified found different _)

/-- A store into one array has nothing to do with another. -/
theorem store_elsewhere (different : other ≠ id) (index : Int64) (value : Value) :
    Takes (Elsewhere id) (store other index value) := by
  intro h
  unfold Action.after
  rcases h.store_cases other index value with
    ⟨fault, refused⟩ | ⟨cell, place, found, _, stored⟩
  · rw [refused]
  · rw [stored]
    exact .single (.modified found different _)

/-- A new array has nothing to do with one that is there. -/
theorem allocate_elsewhere {α : Type} (contents : Elements) (answer : Heap → α) :
    Takes (Elsewhere id) fun h => .ok (answer h) (h.allocate contents).2 :=
  fun _ => .single (.allocated contents)

/-- Looking into an array has nothing to do with any. -/
theorem inspect_elsewhere {α : Type} (read : Cell → Except Fault α) :
    Takes (Elsewhere id) (inspect other read) := .ofExcept _

/-- Exporting one array has nothing to do with another. -/
theorem exportHost_elsewhere (different : other ≠ id) :
    Takes (Elsewhere id) (exportHost (.array other)) :=
  (inspect_elsewhere _).bind fun _ => (release_elsewhere different).discard.bind fun _ => .pure _

/-- An operation that is not to change an array changes nothing but other arrays. -/
theorem Operation.run_elsewhere {operation : Operation} (apart : operation.changes? ≠ some id) :
    Takes (Elsewhere id) operation.run := by
  have different {other : ArrayId} (changes : operation.changes? = some other) : other ≠ id := by
    rintro rfl
    exact apart changes
  cases operation with
  | allocate | allocateData => exact allocate_elsewhere _ _
  | importHost value =>
    cases value with
    | array contents => exact allocate_elsewhere contents _
    | _ => exact fun _ => .refl
  | exportHost value =>
    cases value with
    | array other => exact (exportHost_elsewhere (different rfl)).bind fun _ => .pure _
    | _ => exact fun _ => .refl
  | retain other => exact (retain_elsewhere (different rfl)).bind fun _ => .pure _
  | release other => exact (release_elsewhere (different rfl)).bind fun _ => .pure _
  | retainValue value =>
    cases value with
    | array other => exact (retain_elsewhere (different rfl)).bind fun _ => .pure _
    | _ => exact fun _ => .refl
  | releaseValue value =>
    cases value with
    | array other => exact (release_elsewhere (different rfl)).discard.bind fun _ => .pure _
    | _ => exact fun _ => .refl
  | isLive => exact fun _ => .refl
  | store other index value =>
    exact (store_elsewhere (different rfl) index value).bind fun _ => .pure _
  | references | elementType | length | load | toHost =>
    exact (inspect_elsewhere _).bind fun _ => .pure _

/-- An array that no operation is to change is the same after all of them. -/
theorem Chronicle.find?_after {c : Chronicle} {cell : Cell} (tallied : c.heap.Tallied)
    (found : c.heap.find? id = some cell) {between : List Operation}
    (apart : ∀ operation ∈ between, operation.changes? ≠ some id) :
    (c.after between).heap.Tallied ∧ (c.after between).heap.find? id = some cell := by
  induction between generalizing c with
  | nil => exact ⟨tallied, found⟩
  | cons operation rest ih =>
    have changes := Operation.run_elsewhere (apart operation List.mem_cons_self) c.heap
    rw [← heap_next] at changes
    obtain ⟨tallied, found⟩ := find?_of_elsewhere changes tallied found
    exact ih tallied found fun later member => apart later (List.mem_cons_of_mem _ member)

end Between

section Imported

variable {h : Heap} {id : ArrayId} {value : Value} {host : HostValue}

/-- A heap that a value has been imported into has its counts right. -/
theorem importHost_tallied (tallied : h.Tallied) (host : HostValue) :
    (h.importHost host).2.Tallied := tallied.evolves (h.importHost_evolves host)

/-- What is there already does not notice an import. -/
theorem importHost_spares (tallied : h.Tallied) (host : HostValue) :
    h.Spares (h.importHost host).2 (h.importHost host).1 := by
  intro other different
  cases host with
  | array contents =>
    have new : other ≠ (h.allocate contents).1 := fun same => different (congrArg Value.array same)
    exact (find?_allocate contents (fun index => (tallied.vacant index).mp) other).trans
      (if_neg new)
  | _ => rfl

/-- An import counts an array if the host value is one, and nothing otherwise. -/
theorem counts_importHost (h : Heap) (host : HostValue) :
    (h.importHost host).2.counts = if host.isArray then h.counts.allocated else h.counts := by
  cases host with
  | array contents => exact counts_allocate contents
  | _ => rfl

/-- A value that has just been imported stands for the host value. -/
theorem importHost_stands (tallied : h.Tallied) (host : HostValue) :
    Stands (h.importHost host).2 (h.importHost host).1 host := by
  cases host with
  | int n => exact .int n
  | float x => exact .float x
  | bool b => exact .bool b
  | array contents => exact .array (find?_allocate_new tallied contents)

/-- The id of an imported array was that of no live array. -/
theorem find?_of_importHost (tallied : h.Tallied) (named : (h.importHost host).1 = .array id) :
    h.find? id = none := by
  cases host with
  | array contents =>
    cases named
    exact find?_allocate_id contents fun index => (tallied.vacant index).mp
  | _ => cases named

/-- What has been imported stays on the heap while more is imported. -/
theorem Stands.importHost (stands : Stands h value host) (tallied : h.Tallied) (next : HostValue) :
    Stands (h.importHost next).2 value host := by
  cases stands with
  | int n => exact .int n
  | float x => exact .float x
  | bool b => exact .bool b
  | array found =>
    cases next with
    | array contents => exact .array (find?_allocate_of_find? tallied contents found)
    | _ => exact .array found

/-- Importing a list of host values imports them one after another. -/
theorem importAll_imports (tallied : h.Tallied) (hosts : List HostValue) :
    Imports h hosts (h.importAll hosts).1 (h.importAll hosts).2 := by
  induction hosts generalizing h with
  | nil => exact .done
  | cons host rest ih =>
    exact .step (importHost_spares tallied host) (counts_importHost h host)
      (ih (importHost_tallied tallied host))

/-- What stands for a host value stands for it still when more are imported. -/
theorem Stands.importAll (stands : Stands h value host) (tallied : h.Tallied)
    (hosts : List HostValue) : Stands (h.importAll hosts).2 value host := by
  induction hosts generalizing h with
  | nil => exact stands
  | cons next rest ih =>
    exact ih (stands.importHost tallied next) (importHost_tallied tallied next)

/-- Every imported value stands for what it was imported from. -/
theorem importAll_stands (tallied : h.Tallied) (hosts : List HostValue) :
    List.Forall₂ (Stands (h.importAll hosts).2) (h.importAll hosts).1 hosts := by
  induction hosts generalizing h with
  | nil => exact .nil
  | cons host rest ih =>
    have tallied' := importHost_tallied tallied host
    exact .cons ((importHost_stands tallied host).importAll tallied' rest) (ih tallied')

/-- The ids of a list of values are those of the arrays in it. -/
theorem mem_arrayIds {values : List Value} : id ∈ arrayIds values ↔ .array id ∈ values := by
  unfold arrayIds
  rw [List.mem_filterMap]
  constructor
  · rintro ⟨value, member, named⟩
    cases value <;> cases named
    exact member
  · exact fun member => ⟨_, member, rfl⟩

/-- No id that an import gives out was that of a live array. -/
theorem importAll_fresh (tallied : h.Tallied) {hosts : List HostValue}
    (member : id ∈ arrayIds (h.importAll hosts).1) : h.find? id = none := by
  rw [mem_arrayIds] at member
  induction hosts generalizing h with
  | nil => cases member
  | cons host rest ih =>
    by_cases first : .array id = (h.importHost host).1
    · exact find?_of_importHost tallied first.symm
    · rw [← importHost_spares tallied host id first]
      exact ih (importHost_tallied tallied host) ((List.mem_cons.mp member).resolve_left first)

/-- Arrays that are imported one after another have different ids. -/
theorem importAll_distinct (tallied : h.Tallied) (hosts : List HostValue) :
    (arrayIds (h.importAll hosts).1).Nodup := by
  induction hosts generalizing h with
  | nil => exact .nil
  | cons host rest ih =>
    have tallied' := importHost_tallied tallied host
    have others := ih tallied'
    change (arrayIds ((h.importHost host).1 :: ((h.importHost host).2.importAll rest).1)).Nodup
    cases named : (h.importHost host).1 with
    | array id =>
      -- The first array is there when the others are imported, so none of them gets its id.
      refine List.nodup_cons.mpr ⟨fun again => ?_, others⟩
      have absent := importAll_fresh tallied' again
      have stands := importHost_stands tallied host
      rw [named] at stands
      cases stands with
      | array found =>
        rw [found] at absent
        cases absent
    | _ => exact others

end Imported

section Exported

variable {h after : Heap} {value : Value} {host : HostValue} {pairs : List (Value × HostValue)}

/-- A value that stands for a host value is exported as that, and no other array notices. -/
theorem Stands.exportHost (stands : Stands h value host) :
    ∃ between, Heap.exportHost value h = .ok (some host) between ∧ h.Spares between value ∧
      between.counts = if host.isArray then h.counts.freed else h.counts := by
  cases stands with
  | int n => exact ⟨h, rfl, fun _ _ => rfl, rfl⟩
  | float x => exact ⟨h, rfl, fun _ _ => rfl, rfl⟩
  | bool b => exact ⟨h, rfl, fun _ _ => rfl, rfl⟩
  | @array id contents found =>
    have read : toHost id h = .ok (.array contents) h := inspect_of_find? found _
    refine ⟨h.vacate id.index, ?_, fun other different => ?_, rfl⟩
    · simp only [Heap.exportHost, Action.bind_apply, read, Action.discard_apply,
        release_last found rfl, Action.pure_apply]
    · exact find?_vacate_of_ne found fun same => different (congrArg Value.array same)

/-- A heap that a value has been exported from has its counts right. -/
theorem exportHost_tallied {answer : Option HostValue} (tallied : h.Tallied)
    (exported : Heap.exportHost value h = .ok answer after) : after.Tallied := by
  have changes := exportHost_takes value h
  unfold Action.after at changes
  rw [exported] at changes
  exact tallied.evolves changes

/-- What stands for a host value stands for it still when another value is gone. -/
theorem Stands.of_spares {other : Value} (stands : Stands h value host)
    (spared : h.Spares after other)
    (different : ∀ id ∈ value.asArray?, .array id ≠ other) : Stands after value host := by
  cases stands with
  | int n => exact .int n
  | float x => exact .float x
  | bool b => exact .bool b
  | array found =>
    refine .array ?_
    rw [spared _ (different _ rfl), found]

/-- Values that stand for host values can be exported one after another, in whatever order they are
listed. -/
theorem exports_of_stands (stands : ∀ pair ∈ pairs, Stands h pair.1 pair.2)
    (distinct : (arrayIds (pairs.map Prod.fst)).Nodup) : ∃ last, Exports h pairs last := by
  induction pairs generalizing h with
  | nil => exact ⟨h, .done⟩
  | cons pair rest ih =>
    obtain ⟨value, host⟩ := pair
    obtain ⟨between, exported, spared, counted⟩ := (stands _ List.mem_cons_self).exportHost
    -- An array is in one pair only, so the others are still there when it is gone.
    have others : ∀ pair ∈ rest, Stands between pair.1 pair.2 := by
      intro pair member
      refine (stands pair (List.mem_cons_of_mem _ member)).of_spares spared ?_
      rintro id named rfl
      have again : id ∈ arrayIds (rest.map Prod.fst) :=
        List.mem_filterMap.mpr ⟨pair.1, List.mem_map_of_mem member, named⟩
      exact (List.nodup_cons.mp distinct).1 again
    have remaining : (arrayIds (rest.map Prod.fst)).Nodup := by
      cases value with
      | array id => exact (List.nodup_cons.mp distinct).2
      | _ => exact distinct
    obtain ⟨last, exports⟩ := ih others remaining
    exact ⟨last, .step exported spared counted exports⟩

end Exported

section Totals

variable {h after : Heap}

/-- Imports add the arrays among the host values to those that are alive, and free none. -/
theorem Imports.totals {hosts : List HostValue} {values : List Value}
    (imports : Imports h hosts values after) :
    after.counts.live = h.counts.live + hosts.countP HostValue.isArray ∧
      after.counts.allocations = h.counts.allocations + hosts.countP HostValue.isArray ∧
      after.counts.frees = h.counts.frees := by
  induction imports with
  | done => exact ⟨rfl, rfl, rfl⟩
  | @step h after host hosts values spared counted rest ih =>
    obtain ⟨live, allocations, frees⟩ := ih
    rw [counted] at live allocations frees
    rw [List.countP_cons]
    cases array : host.isArray
    · simp only [array, Bool.false_eq_true, if_false] at live allocations frees ⊢
      exact ⟨live, allocations, frees⟩
    · simp only [array, if_true, HeapCounts.allocated] at live allocations frees ⊢
      omega

/-- Exports take the arrays among the host values from those that are alive, and allocate none. -/
theorem Exports.totals {pairs : List (Value × HostValue)} (exports : Exports h pairs after)
    (tallied : h.Tallied) :
    after.counts.live + pairs.countP (fun pair => pair.2.isArray) = h.counts.live ∧
      after.counts.allocations = h.counts.allocations ∧
      after.counts.frees = h.counts.frees + pairs.countP fun pair => pair.2.isArray := by
  induction exports with
  | done => exact ⟨rfl, rfl, rfl⟩
  | @step h between after value host pairs exported spared counted rest ih =>
    -- Subtracting one is exact, as the allocations are the frees and the live arrays each time.
    have tallied' := exportHost_tallied tallied exported
    obtain ⟨live, allocations, frees⟩ := ih tallied'
    have now := tallied.freed
    have next := tallied'.freed
    rw [List.countP_cons]
    rw [counted] at live allocations frees next
    cases array : host.isArray
    · simp only [array, Bool.false_eq_true, if_false] at live allocations frees ⊢
      omega
    · simp only [array, if_true, HeapCounts.freed] at live allocations frees next ⊢
      omega

end Totals

/-- Importing values one by one is importing all of them. -/
theorem Chronicle.heap_imports [Numbering] (c : Chronicle) (hosts : List HostValue) :
    (c.after (hosts.map .importHost)).heap = (c.heap.importAll hosts).2 := by
  induction hosts generalizing c with
  | nil => rfl
  | cons host rest ih =>
    have first : (c.next (.importHost host)).heap = (c.heap.importHost host).2 := heap_next ..
    exact (ih _).trans (congrArg (fun h => (h.importAll rest).2) first)

/-- The free list and the counts are right on every heap whose ids have 32 bits for the number of a
slot, however many slots there are. -/
theorem Narrow.tallied_after (operations : List Operation) :
    (Narrow.after .blank operations).heap.Tallied := by
  have same := @Chronicle.heap_after .low32 .blank operations
  rw [same]
  exact (Chronicle.exact_after operations).tallied

/-- No slot is lost when host values are imported. -/
theorem Imports.size_le {h after : Heap} {hosts : List HostValue} {values : List Value}
    (imports : Imports h hosts values after) : h.slots.size ≤ after.slots.size := by
  induction imports with
  | done => exact Nat.le_refl _
  | @step h _ host _ _ _ _ _ ih => exact Nat.le_trans (h.size_le_importAll [host]) ih

/-- With 32 bits for the number of a slot host values are imported just so, if the heap that they
are on has at most `2 ^ 32` slots. -/
theorem Imports.narrow {h after : Heap} {hosts : List HostValue} {values : List Value}
    (imports : Imports h hosts values after) (room : after.slots.size ≤ UInt32.size) :
    Narrow.Imports h hosts values after := by
  induction imports with
  | done => exact @Imports.done .low32 _
  | @step h _ host _ _ spared counted rest ih =>
    have early : (@importHost .low32 h host).2.slots.size ≤ UInt32.size := by
      rw [@importHost_heap .low32]
      exact Nat.le_trans rest.size_le room
    rw [← importHost_narrow early] at spared counted ih ⊢
    exact @Imports.step .low32 _ _ _ _ _ spared counted (ih room)

/-- What has been imported is still there after operations that leave its arrays alone. -/
theorem Chronicle.stands_after {c : Chronicle} {value : Value} {host : HostValue}
    (tallied : c.heap.Tallied) (stands : Stands c.heap value host) {between : List Operation}
    (apart : ∀ operation ∈ between, ∀ id ∈ value.asArray?, operation.changes? ≠ some id) :
    Stands (c.after between).heap value host := by
  cases stands with
  | int n => exact .int n
  | float x => exact .float x
  | bool b => exact .bool b
  | array found =>
    exact .array (find?_after tallied found fun operation member => apart operation member _ rfl).2

/-- Whatever has been imported is still there after operations that leave its arrays alone. -/
theorem Chronicle.all_stand_after {c : Chronicle} {values : List Value} {hosts : List HostValue}
    (tallied : c.heap.Tallied) (stand : List.Forall₂ (Stands c.heap) values hosts)
    {between : List Operation}
    (apart : ∀ operation ∈ between, ∀ id ∈ arrayIds values, operation.changes? ≠ some id) :
    List.Forall₂ (Stands (c.after between).heap) values hosts := by
  obtain ⟨length, zipped⟩ := List.forall₂_iff_zip.mp stand
  refine List.forall₂_iff_zip.mpr ⟨length, fun {value host} member => ?_⟩
  refine stands_after tallied (zipped member) fun operation among id named => ?_
  have known : value ∈ values := (List.of_mem_zip member).1
  exact apart operation among id (List.mem_filterMap.mpr ⟨value, known, named⟩)

/-- Values that stand for host values are exported in any order, and every array among them is
freed. -/
theorem exports_of_perm {h : Heap} {values : List Value} {hosts : List HostValue}
    {order : List (Value × HostValue)} (tallied : h.Tallied)
    (stand : List.Forall₂ (Stands h) values hosts) (distinct : (arrayIds values).Nodup)
    (once : order.Perm (values.zip hosts)) :
    ∃ last, Exports h order last ∧
      last.counts.live + hosts.countP HostValue.isArray = h.counts.live ∧
      last.counts.allocations = h.counts.allocations ∧
      last.counts.frees = h.counts.frees + hosts.countP HostValue.isArray := by
  obtain ⟨length, zipped⟩ := List.forall₂_iff_zip.mp stand
  have names : (order.map Prod.fst).Perm values := by
    rw [← List.map_fst_zip (Nat.le_of_eq length)]
    exact once.map _
  have contents : (order.map Prod.snd).Perm hosts := by
    rw [← List.map_snd_zip (Nat.le_of_eq length.symm)]
    exact once.map _
  have arrays : order.countP (fun pair => pair.2.isArray) = hosts.countP HostValue.isArray :=
    List.countP_map.symm.trans (contents.countP_eq HostValue.isArray)
  obtain ⟨last, exports⟩ :=
    exports_of_stands (fun pair member => zipped (once.mem_iff.mp member))
      ((names.filterMap _).nodup_iff.mpr distinct)
  have totals := exports.totals tallied
  rw [arrays] at totals
  exact ⟨last, exports, totals⟩

/-- Values that go into the heap come out of it as they were, to the bit, whatever was on the heap
before, whatever happens to other arrays in between, and in whatever order they are exported. The
arrays among them get ids of their own, which no live array has. No import and no export is noticed
by another array, each array is one allocation and later one free, and nothing else is either of
them. Ids have 32 bits for the number of a slot, so that the heap may have `2 ^ 32` slots when the
values are on it. -/
theorem host_round_trip (operations between : List Operation) (hosts : List HostValue)
    (order : List (Value × HostValue))
    (room : (Narrow.importAll (Narrow.after .blank operations).heap hosts).2.slots.size ≤ UInt32.size)
    (apart : ∀ operation ∈ between,
      ∀ id ∈ arrayIds (Narrow.importAll (Narrow.after .blank operations).heap hosts).1,
        operation.changes? ≠ some id)
    (once : order.Perm
      ((Narrow.importAll (Narrow.after .blank operations).heap hosts).1.zip hosts)) :
    let c := Narrow.after .blank operations
    let imported := (Narrow.importAll c.heap hosts).1
    let entered := Narrow.after c (hosts.map .importHost)
    let before := Narrow.after entered between
    let arrays := hosts.countP HostValue.isArray
    imported.length = hosts.length ∧ (arrayIds imported).Nodup ∧
    (∀ id ∈ arrayIds imported, c.heap.isLive id = false) ∧
    Narrow.Imports c.heap hosts imported entered.heap ∧
    (entered.heap.counts.live = c.heap.counts.live + arrays ∧
      entered.heap.counts.allocations = c.heap.counts.allocations + arrays ∧
      entered.heap.counts.frees = c.heap.counts.frees) ∧
    ∃ last, Exports before.heap order last ∧
      (last.counts.live + arrays = before.heap.counts.live ∧
        last.counts.allocations = before.heap.counts.allocations ∧
        last.counts.frees = before.heap.counts.frees + arrays) ∧
      (between = [] → last.counts.live = c.heap.counts.live) := by
  intro c imported entered before arrays
  have tallied : c.heap.Tallied := Narrow.tallied_after operations
  have same : Narrow.importAll c.heap hosts = c.heap.importAll hosts := importAll_narrow room
  have enters : entered.heap = (c.heap.importAll hosts).2 :=
    (@Chronicle.heap_imports .low32 c hosts).trans (congrArg Prod.snd same)
  have talliedEntered : entered.heap.Tallied :=
    enters ▸ tallied.evolves (c.heap.importAll_evolves hosts)
  have talliedBefore : before.heap.Tallied := by
    have reached := Narrow.tallied_after (operations ++ hosts.map .importHost ++ between)
    unfold Narrow.after at reached
    rwa [@Chronicle.after_append .low32, @Chronicle.after_append .low32] at reached
  have names : imported = (c.heap.importAll hosts).1 := congrArg Prod.fst same
  have stand : List.Forall₂ (Stands entered.heap) imported hosts := by
    rw [enters, names]
    exact importAll_stands tallied hosts
  have imports : Imports c.heap hosts imported entered.heap := by
    rw [enters, names]
    exact importAll_imports tallied hosts
  have crowd : entered.heap.slots.size ≤ UInt32.size := by rwa [enters, ← same]
  have distinct : (arrayIds imported).Nodup := names ▸ importAll_distinct tallied hosts
  have fresh : ∀ id ∈ arrayIds imported, c.heap.isLive id = false := by
    intro id member
    rw [names] at member
    exact isLive_eq_false_iff.mpr (importAll_fresh tallied member)
  have ready : List.Forall₂ (Stands before.heap) imported hosts := by
    have goesOn := @Chronicle.heap_after .low32 entered between
    rw [goesOn]
    exact Chronicle.all_stand_after talliedEntered stand apart
  obtain ⟨last, exports, totals⟩ := exports_of_perm talliedBefore ready distinct once
  have arrived := imports.totals
  refine ⟨(List.forall₂_iff_zip.mp stand).1, distinct, fresh, imports.narrow crowd, arrived, last,
    exports, totals, ?_⟩
  rintro rfl
  exact Nat.add_right_cancel (totals.1.trans arrived.1)

/-- An array is imported into a slot that was used before, and one with a NaN beside it. A third
array comes and goes, and the values are exported the other way round. -/
theorem host_round_trip_reversed :
    let earlier : List Operation := [.allocate .int 1, .release ⟨0, 0⟩]
    let hosts : List HostValue :=
      [.array (.ints #[5, -5]), .bool true, .array (.floats #[⟨0x7ff0000000000001⟩])]
    let imported : List Value := [.array ⟨0, 1⟩, .bool true, .array ⟨1, 0⟩]
    let between : List Operation :=
      [.allocate .bool 2, .load ⟨0, 1⟩ 1, .store ⟨2, 0⟩ 0 (.bool true), .release ⟨2, 0⟩]
    (Narrow.importAll (Narrow.after .blank earlier).heap hosts).2.slots.size = 2 ∧
      (Narrow.importAll (Narrow.after .blank earlier).heap hosts).1 = imported ∧
      (∀ operation ∈ between, ∀ id ∈ arrayIds imported, operation.changes? ≠ some id) ∧
      ∃ last, Exports
          (Narrow.after (Narrow.after (Narrow.after .blank earlier) (hosts.map .importHost))
            between).heap
          (imported.zip hosts).reverse last ∧
        last.counts.live = 0 := by
  intro earlier hosts imported between
  have size : (Narrow.importAll (Narrow.after .blank earlier).heap hosts).2.slots.size = 2 := by
    decide +kernel
  have ids : (Narrow.importAll (Narrow.after .blank earlier).heap hosts).1 = imported := by
    decide +kernel
  have apart : ∀ operation ∈ between, ∀ id ∈ arrayIds imported, operation.changes? ≠ some id := by
    decide +kernel
  have spared : ∀ operation ∈ between,
      ∀ id ∈ arrayIds (Narrow.importAll (Narrow.after .blank earlier).heap hosts).1,
        operation.changes? ≠ some id := by
    rw [ids]
    exact apart
  have once : (imported.zip hosts).reverse.Perm
      ((Narrow.importAll (Narrow.after .blank earlier).heap hosts).1.zip hosts) := by
    rw [ids]
    exact List.reverse_perm _
  obtain ⟨_, _, _, _, _, last, exports, ⟨left, _⟩, _⟩ :=
    host_round_trip earlier between hosts _ (size ▸ by decide) spared once
  have live : (Narrow.after (Narrow.after (Narrow.after .blank earlier) (hosts.map .importHost))
      between).heap.counts.live = 2 := by decide +kernel
  have arrays : hosts.countP HostValue.isArray = 2 := by decide
  have remaining : last.counts.live + hosts.countP HostValue.isArray = 2 := left.trans live
  rw [arrays] at remaining
  exact ⟨size, ids, apart, last, exports, Nat.add_eq_right.mp remaining⟩

end Heap

end HotPath
