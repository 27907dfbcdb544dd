import HotPath.Code.Draft
import Mathlib.Data.List.Induction
import Mathlib.Data.List.Nodup

/-!
# Interning

A program is put together by additions in any order: integers, floats and functions, and the name of
the entry. Constants are found by an index that stands beside their table, so everything rests on
`Pool.Inverse`: a key leads to a place exactly if the constant with that key stands there.
`Pool.Inverse.intern` keeps it when a constant is found as well as when it is new, and
`Tables.inverse_drafted` carries it through any sequence of additions to both tables.

`FirstCome` says what a table of constants comes to be, the values that have been added,
each once, in the order in which they first came. As a table is only ever extended at its end, an
index that was handed out stays that of its value, and what an addition answers can be read off the
finished program (`Tables.answer?_eq`).

A float is added under its bits, so that is how `interning_sound` tells floats apart.
-/

namespace HotPath

/-- The values of `added` are in the table, each once, in the order in which they first came. -/
structure FirstCome {α : Type} [DecidableEq α] (added table : List α) : Prop where
  distinct : table.Nodup
  complete : ∀ value, value ∈ table ↔ value ∈ added
  ordered : table.Pairwise fun earlier later => added.idxOf earlier < added.idxOf later

namespace Pool

variable {κ α : Type} [DecidableEq κ] {key : α → κ} {pool : Pool κ α}

/-- The keys of the constants, in the order of the table. -/
def keys (key : α → κ) (pool : Pool κ α) : List κ := pool.constants.toList.map key

/-- The index and the table are inverse to each other: a key leads to a place exactly if the
constant with that key stands there. -/
def Inverse (key : α → κ) (pool : Pool κ α) : Prop :=
  ∀ k place, pool.index.find? k = some place ↔ (pool.keys key)[place]? = some k

/-- A key that has a place answers it, and nothing changes. -/
theorem intern_of_known {value : α} {place : Nat}
    (known : pool.index.find? (key value) = some place) : pool.intern key value = (place, pool) := by
  rw [intern, known]

/-- A key that has no place gets the next one, in the table and in the index. -/
theorem intern_of_unknown {value : α} (unknown : pool.index.find? (key value) = none) :
    pool.intern key value =
      (pool.constants.size,
        ⟨pool.constants.push value, pool.index.insert (key value) pool.constants.size⟩) := by
  rw [intern, unknown]

omit [DecidableEq κ] in
/-- The key of a constant that is put at the end comes last. -/
theorem keys_push (constants : Array α) (index : PlaceIndex κ) (value : α) :
    keys key ⟨constants.push value, index⟩ = constants.toList.map key ++ [key value] := by
  rw [keys, Array.toList_push, List.map_append, List.map_singleton]

/-- An empty table and an empty index are inverse to each other. -/
theorem inverse_empty : Inverse key ({} : Pool κ α) := by
  intro k place
  simp [keys]

namespace Inverse

/-- The index leads from a key to its first place among the keys of the table. -/
theorem find?_eq (inverse : pool.Inverse key) (k : κ) :
    pool.index.find? k =
      if k ∈ pool.keys key then some ((pool.keys key).idxOf k) else none := by
  split
  next present => exact (inverse k _).mpr (List.getElem?_idxOf present)
  next absent =>
    refine Option.eq_none_iff_forall_ne_some.mpr fun place known => absent ?_
    exact List.mem_of_getElem? ((inverse k place).mp known)

/-- A constant that is found leaves both as they are, and one that is new extends both. -/
theorem intern (inverse : pool.Inverse key) (value : α) :
    (pool.intern key value).2.Inverse key := by
  cases found : pool.index.find? (key value) with
  | some place =>
    rw [intern_of_known found]
    exact inverse
  | none =>
    rw [intern_of_unknown found]
    have length : (pool.keys key).length = pool.constants.size := by
      rw [keys, List.length_map, Array.length_toList]
    intro k place
    rw [PlaceIndex.find?_insert, keys_push, ← keys]
    by_cases same : k = key value
    · -- The key was nowhere in the table, so its only place is the new one.
      have absent : key value ∉ pool.keys key := by
        intro present
        rw [inverse.find?_eq, if_pos present] at found
        cases found
      rw [if_pos same, Option.some_inj, same]
      constructor
      · rintro rfl
        rw [← length, List.getElem?_concat_length]
      · intro there
        rcases Nat.lt_trichotomy place pool.constants.size with before | here | behind
        · rw [List.getElem?_append_left (length ▸ before)] at there
          exact absurd (List.mem_of_getElem? there) absent
        · exact here.symm
        · rw [List.getElem?_eq_none (by rw [List.length_append, length]; exact behind)] at there
          cases there
    · rw [if_neg same, inverse]
      by_cases before : place < pool.constants.size
      · rw [List.getElem?_append_left (length ▸ before)]
      · rw [List.getElem?_eq_none (by rw [length]; omega),
          List.getElem?_append_right (by rw [length]; omega)]
        constructor
        · intro there
          cases there
        · intro there
          exact absurd (List.mem_singleton.mp (List.mem_of_getElem? there)) same

/-- Interning answers the first place of a key. -/
theorem intern_fst (inverse : pool.Inverse key) (value : α) :
    (pool.intern key value).1 = (pool.keys key).idxOf (key value) := by
  have search := inverse.find?_eq (key value)
  split at search
  next present => rw [intern_of_known search]
  next absent =>
    rw [intern_of_unknown search, List.idxOf_eq_length absent, keys, List.length_map,
      Array.length_toList]

/-- A key that has no place gets the next one. -/
theorem keys_intern (inverse : pool.Inverse key) (value : α) :
    (pool.intern key value).2.keys key =
      if key value ∈ pool.keys key then pool.keys key else pool.keys key ++ [key value] := by
  have search := inverse.find?_eq (key value)
  split at search
  next present => rw [intern_of_known search, if_pos present]
  next absent => rw [intern_of_unknown search, keys_push, if_neg absent, keys]

/-- A constant that has been interned is in the table. -/
theorem mem_intern (inverse : pool.Inverse key) (value : α) :
    key value ∈ (pool.intern key value).2.keys key := by
  rw [inverse.keys_intern]
  split
  next present => exact present
  next => simp

/-- A table is extended at its end. -/
theorem prefix_intern (inverse : pool.Inverse key) (value : α) :
    pool.keys key <+: (pool.intern key value).2.keys key := by
  rw [inverse.keys_intern]
  split
  next => exact List.prefix_rfl
  next => exact List.prefix_append ..

/-- The index that is handed out is the place of the key in every later table. -/
theorem intern_eq_idxOf (inverse : pool.Inverse key) {value : α} {later : List κ}
    (extended : (pool.intern key value).2.keys key <+: later) :
    (pool.intern key value).1 = later.idxOf (key value) := by
  rw [← extended.idxOf_eq_of_mem (inverse.mem_intern value), inverse.keys_intern,
    inverse.intern_fst]
  split
  next => rfl
  next absent =>
    rw [List.idxOf_append_of_notMem absent, List.idxOf_eq_length absent, List.idxOf_cons_self,
      Nat.add_zero]

end Inverse

end Pool

namespace FirstCome

variable {α : Type} [DecidableEq α] {added table : List α}

/-- Nothing has been added to the empty table. -/
theorem nil : FirstCome ([] : List α) [] where
  distinct := .nil
  complete := by simp
  ordered := .nil

/-- One more value is added. -/
theorem concat (listed : FirstCome added table) (item : α) :
    FirstCome (added ++ [item]) (if item ∈ table then table else table ++ [item]) := by
  -- The values that were there keep their first places.
  have still : table.Pairwise fun earlier later =>
      (added ++ [item]).idxOf earlier < (added ++ [item]).idxOf later := by
    refine listed.ordered.imp_of_mem ?_
    intro earlier later early late before
    rw [List.idxOf_append_of_mem ((listed.complete earlier).mp early),
      List.idxOf_append_of_mem ((listed.complete later).mp late)]
    exact before
  by_cases present : item ∈ table
  · rw [if_pos present]
    refine ⟨listed.distinct, ?_, still⟩
    intro value
    rw [listed.complete, List.mem_append, List.mem_singleton]
    constructor
    · exact .inl
    · rintro (old | rfl)
      · exact old
      · exact (listed.complete value).mp present
  · have fresh : item ∉ added := fun member => present ((listed.complete item).mpr member)
    rw [if_neg present]
    constructor
    case distinct =>
      rw [List.nodup_append]
      refine ⟨listed.distinct, List.nodup_singleton item, ?_⟩
      intro old member new singleton
      rw [List.mem_singleton.mp singleton]
      rintro rfl
      exact present member
    case complete =>
      intro value
      simp only [List.mem_append, listed.complete]
    case ordered =>
      rw [List.pairwise_append]
      refine ⟨still, List.pairwise_singleton .., ?_⟩
      intro earlier early later singleton
      have old := (listed.complete earlier).mp early
      rw [List.mem_singleton.mp singleton, List.idxOf_append_of_mem old,
        List.idxOf_append_of_notMem fresh]
      exact Nat.lt_of_lt_of_le (List.idxOf_lt_length_iff.mpr old) (Nat.le_add_right ..)

end FirstCome

namespace Draft

/-- What can be added to a program under construction. -/
inductive Addition where
  | int (value : Int64)
  | float (value : Double)
  | function (f : Function)
  /-- The name of the function to start with. -/
  | entry (name : String)
deriving DecidableEq, Repr

namespace Addition

def int? : Addition → Option Int64
  | int value => some value
  | _ => none

def float? : Addition → Option Double
  | float value => some value
  | _ => none

/-- The bits of the float that is added. -/
def floatBits? (a : Addition) : Option UInt64 := a.float?.map Double.bits

def function? : Addition → Option Function
  | function f => some f
  | _ => none

end Addition

/-- Make an addition. It answers the index that it hands out; naming the entry hands out none. -/
def add (d : Draft) : Addition → Option Nat × Draft
  | .int value => (some (d.addInt value).1, (d.addInt value).2)
  | .float value => (some (d.addFloat value).1, (d.addFloat value).2)
  | .function f => (some (d.addFunction f).1, (d.addFunction f).2)
  | .entry name => (none, d.setEntry name)

/-- What additions make of an empty draft. -/
def drafted (additions : List Addition) : Draft := additions.foldl (fun d a => (d.add a).2) {}

/-- What the addition at a position of the sequence answers, when those before it have been made. -/
def answer? (additions : List Addition) (turn : Nat) : Option Nat :=
  additions[turn]?.bind fun a => ((drafted (additions.take turn)).add a).1

section Runs

variable (additions : List Addition)

/-- The last addition is made to what the others have made. -/
theorem drafted_concat (a : Addition) :
    drafted (additions ++ [a]) = ((drafted additions).add a).2 := List.foldl_append

/-- An addition stands between those before it and those after it. -/
theorem split_at {additions : List Addition} {turn : Nat} {a : Addition}
    (made : additions[turn]? = some a) :
    additions = additions.take turn ++ [a] ++ additions.drop (turn + 1) := by
  obtain ⟨inside, rfl⟩ := List.getElem?_eq_some_iff.mp made
  rw [← List.take_succ_eq_append_getElem inside, List.take_append_drop]

/-- An addition answers what it answers to those before it. -/
theorem answer?_of_made {additions : List Addition} {turn : Nat} {a : Addition}
    (made : additions[turn]? = some a) :
    answer? additions turn = ((drafted (additions.take turn)).add a).1 := by
  rw [answer?, made, Option.bind_some]

end Runs

/-- A pool of constants and the additions that go into it. -/
structure Tables {κ α : Type} [DecidableEq κ] (key : α → κ) (key? : Addition → Option κ)
    (pool : Draft → Pool κ α) : Prop where
  empty : pool {} = {}
  interns : ∀ {d : Draft} {a : Addition} {k : κ}, key? a = some k → ∃ value, key value = k ∧
    d.add a = (some ((pool d).intern key value).1, (d.add a).2) ∧
      pool (d.add a).2 = ((pool d).intern key value).2
  spares : ∀ {d : Draft} {a : Addition}, key? a = none → pool (d.add a).2 = pool d

/-- Integers are interned under themselves. -/
theorem intTables : Tables id Addition.int? Draft.ints where
  empty := rfl
  interns := by
    intro d a k added
    cases a <;> cases added
    exact ⟨k, rfl, rfl, rfl⟩
  spares := by
    intro d a other
    cases a <;> cases other <;> rfl

/-- Floats are interned under their bits. -/
theorem floatTables : Tables Double.bits Addition.floatBits? Draft.floats where
  empty := rfl
  interns := by
    intro d a k added
    cases a with
    | float value =>
      cases added
      exact ⟨value, rfl, rfl, rfl⟩
    | _ => cases added
  spares := by
    intro d a other
    cases a <;> cases other <;> rfl

namespace Tables

variable {κ α : Type} [DecidableEq κ] {key : α → κ} {key? : Addition → Option κ}
  {pool : Draft → Pool κ α} (tables : Tables key key? pool)

include tables

/-- Whatever is added, to this table or another, its index and its constants stay inverse to each
other. -/
theorem inverse_add {d : Draft} (inverse : (pool d).Inverse key) (a : Addition) :
    (pool (d.add a).2).Inverse key := by
  cases added : key? a with
  | none => rwa [tables.spares added]
  | some k =>
    obtain ⟨value, -, -, leaves⟩ := tables.interns (d := d) added
    rw [leaves]
    exact inverse.intern value

/-- Index and table are inverse to each other whatever has been added. -/
theorem inverse_drafted (additions : List Addition) : (pool (drafted additions)).Inverse key := by
  induction additions using List.reverseRecOn with
  | nil =>
    have start : pool (drafted []) = {} := tables.empty
    rw [start]
    exact Pool.inverse_empty
  | append_singleton additions a ih =>
    rw [drafted_concat]
    exact tables.inverse_add ih a

/-- An addition of any kind leaves the table as it is or extends it at its end. -/
theorem prefix_add {d : Draft} (inverse : (pool d).Inverse key) (a : Addition) :
    (pool d).keys key <+: (pool (d.add a).2).keys key := by
  cases added : key? a with
  | none =>
    simp only [tables.spares added, List.prefix_rfl]
  | some k =>
    obtain ⟨value, -, -, leaves⟩ := tables.interns (d := d) added
    rw [leaves]
    exact inverse.prefix_intern value

/-- Whatever is added later, a table is extended at its end. -/
theorem prefix_drafted (early late : List Addition) :
    (pool (drafted early)).keys key <+: (pool (drafted (early ++ late))).keys key := by
  induction late using List.reverseRecOn with
  | nil => exact ⟨[], by rw [List.append_nil, List.append_nil]⟩
  | append_singleton late a ih =>
    rw [← List.append_assoc, drafted_concat]
    exact ih.trans (tables.prefix_add (tables.inverse_drafted _) a)

/-- The table lists the keys that have been added, as they first came. -/
theorem firstCome (additions : List Addition) :
    FirstCome (additions.filterMap key?) ((pool (drafted additions)).keys key) := by
  induction additions using List.reverseRecOn with
  | nil =>
    have start : pool (drafted []) = {} := tables.empty
    rw [start]
    exact .nil
  | append_singleton additions a ih =>
    rw [drafted_concat, List.filterMap_append]
    cases added : key? a with
    | none =>
      rw [tables.spares added, List.filterMap_cons_none added, List.filterMap_nil, List.append_nil]
      exact ih
    | some k =>
      obtain ⟨value, rfl, -, leaves⟩ := tables.interns (d := drafted additions) added
      rw [leaves, (tables.inverse_drafted additions).keys_intern, List.filterMap_cons_some added,
        List.filterMap_nil]
      exact ih.concat (key value)

/-- An addition answers the place that its key has in the finished table. -/
theorem answer?_eq {additions : List Addition} {turn : Nat} {k : κ}
    (added : additions[turn]?.bind key? = some k) :
    answer? additions turn = some (((pool (drafted additions)).keys key).idxOf k) := by
  obtain ⟨a, made, isKey⟩ := Option.bind_eq_some_iff.mp added
  obtain ⟨value, rfl, answers, leaves⟩ :=
    tables.interns (d := drafted (additions.take turn)) isKey
  have later := tables.prefix_drafted (additions.take turn ++ [a]) (additions.drop (turn + 1))
  rw [← split_at made, drafted_concat, leaves] at later
  rw [answer?_of_made made, answers, (tables.inverse_drafted _).intern_eq_idxOf later]

/-- Whatever has been added is in the table. -/
theorem mem_drafted {additions : List Addition} {turn : Nat} {k : κ}
    (added : additions[turn]?.bind key? = some k) :
    k ∈ (pool (drafted additions)).keys key := by
  obtain ⟨a, made, isKey⟩ := Option.bind_eq_some_iff.mp added
  rw [(tables.firstCome additions).complete, List.mem_filterMap]
  exact ⟨a, List.mem_of_getElem? made, isKey⟩

end Tables

/-- What is promised about a table of constants when the program is finished. Two additions answer
alike exactly if their values are the same, the value is found at the index that was answered, and
the table lists the values that have been added, as they first came. -/
structure Stable {α : Type} [DecidableEq α] (additions : List Addition)
    (value? : Addition → Option α) (table : Array α) : Prop where
  injective : ∀ {turn other : Nat} {a b : α}, additions[turn]?.bind value? = some a →
    additions[other]?.bind value? = some b →
      (answer? additions turn = answer? additions other ↔ a = b)
  found : ∀ {turn : Nat} {a : α}, additions[turn]?.bind value? = some a →
    ∃ index, answer? additions turn = some index ∧ table[index]? = some a
  listed : FirstCome (additions.filterMap value?) table.toList

/-- The finished table has what has been added, and the answers are its places. -/
theorem Tables.stable {κ α : Type} [DecidableEq κ] {key : α → κ} {key? : Addition → Option κ}
    {pool : Draft → Pool κ α} (tables : Tables key key? pool) (additions : List Addition)
    {table : Array κ} (listed : table.toList = (pool (drafted additions)).keys key) :
    Stable additions key? table where
  injective := by
    intro turn other a b first second
    rw [tables.answer?_eq first, tables.answer?_eq second, Option.some_inj,
      List.idxOf_inj (tables.mem_drafted first)]
  found := by
    intro turn a added
    refine ⟨_, tables.answer?_eq added, ?_⟩
    rw [← Array.getElem?_toList, listed]
    exact List.getElem?_idxOf (tables.mem_drafted added)
  listed := by
    rw [listed]
    exact tables.firstCome additions

/-- What is promised about the table of functions. It is the list of those that have been added;
each was answered its index there, which is the number of functions before it; and that is the index
that was announced ever since the function before. -/
structure Numbered (additions : List Addition) (functions : Array Function) : Prop where
  listed : functions.toList = additions.filterMap Addition.function?
  counted : ∀ {turn : Nat} {f : Function}, additions[turn]? = some (.function f) →
    answer? additions turn = some ((additions.take turn).filterMap Addition.function?).length
  found : ∀ {turn : Nat} {f : Function}, additions[turn]? = some (.function f) →
    ∃ index, answer? additions turn = some index ∧ functions[index]? = some f
  announced : ∀ {early late : Nat} {f : Function}, early ≤ late →
    additions[late]? = some (.function f) →
      (∀ turn, early ≤ turn → turn < late → additions[turn]?.bind Addition.function? = none) →
        answer? additions late = some (drafted (additions.take early)).nextFunction

/-- The functions are those that have been added, in order. -/
theorem functions_drafted (additions : List Addition) :
    (drafted additions).functions.toList = additions.filterMap Addition.function? := by
  induction additions using List.reverseRecOn with
  | nil => rfl
  | append_singleton additions a ih =>
    rw [drafted_concat, List.filterMap_append, ← ih]
    cases a with
    | function f => exact Array.toList_push ..
    | _ => exact (List.append_nil _).symm

/-- The next index is the number of functions so far. -/
theorem nextFunction_drafted (additions : List Addition) :
    (drafted additions).nextFunction = (additions.filterMap Addition.function?).length := by
  rw [← functions_drafted, Array.length_toList]
  rfl

/-- Functions are numbered in the order in which they have been added. -/
theorem numbered (additions : List Addition) :
    Numbered additions (drafted additions).functions := by
  have counted {turn : Nat} {f : Function} (made : additions[turn]? = some (.function f)) :
      answer? additions turn =
        some ((additions.take turn).filterMap Addition.function?).length := by
    rw [answer?_of_made made, ← nextFunction_drafted]
    rfl
  constructor
  case listed => exact functions_drafted additions
  case counted => exact counted
  case found =>
    intro turn f made
    refine ⟨_, counted made, ?_⟩
    have split := congrArg (List.filterMap Addition.function?) (split_at made)
    rw [List.filterMap_append, List.filterMap_append] at split
    rw [← Array.getElem?_toList, functions_drafted, split, List.append_assoc,
      List.getElem?_append_right (Nat.le_refl _), Nat.sub_self]
    rfl
  case announced =>
    intro early late f before made quiet
    have between : ((additions.take late).drop early).filterMap Addition.function? = [] := by
      rw [List.filterMap_eq_nil_iff]
      intro a member
      obtain ⟨k, here⟩ := List.mem_iff_getElem?.mp member
      rw [List.getElem?_drop, List.getElem?_take] at here
      split at here
      next inside =>
        have none := quiet (early + k) (Nat.le_add_right ..) inside
        rwa [here, Option.bind_some] at none
      next => cases here
    have split := List.take_append_drop early (additions.take late)
    rw [List.take_take, Nat.min_eq_left before] at split
    rw [counted made, nextFunction_drafted, ← split, List.filterMap_append, between,
      List.append_nil]

/-- Whatever is added in whatever order, the constants of the finished program are interned soundly,
floats by their bits, and the functions are numbered in order. -/
theorem interning_sound (additions : List Addition) :
    let p := (drafted additions).finish
    Stable additions Addition.int? p.intConstants ∧
      Stable additions Addition.floatBits? (p.floatConstants.map Double.bits) ∧
      Numbered additions p.functions :=
  ⟨intTables.stable additions (List.map_id _).symm, floatTables.stable additions Array.toList_map,
    numbered additions⟩

-- The two zeros are different constants, and the second positive one is found again.
example :
    let additions : List Addition :=
      [.float ⟨0⟩, .int 5, .float ⟨Double.signBit⟩, .float ⟨0⟩, .int 5]
    (List.range 5).map (answer? additions) = [some 0, some 0, some 1, some 0, some 0] := by
  decide +kernel

end Draft

end HotPath
