import HotPath.Tier.Gate
import Mathlib.Data.List.Basic

/-!
# The slots of a gate

A `Crowd` is a gate with everybody who waits at it and everybody who holds a permit. Whoever comes
looks at the gate; someone who may wait looks again whenever woken, and a last time when the wait is
over. Every look is the same decision, `Gate.acquire?`, so that there is one lemma about a look and
four events that come down to it.

`Crowd.Keeps` is what a gate promises: every slot is free or taken by one of the permits, a permit
that is handed back frees its slot, an open gate lets in whoever it has a slot for, and a closed one
nobody.
-/

namespace HotPath

namespace Gate

variable {g : Gate}

/-- A gate that admits gives one of its slots. -/
theorem acquire?_of_admits (admits : g.admits = true) :
    g.acquire? = some { g with available := g.available - 1 } := if_pos admits

/-- A gate that does not admit gives nothing. -/
theorem acquire?_of_refuses (refuses : g.admits = false) : g.acquire? = none := by
  rw [acquire?, refuses]
  rfl

/-- A gate admits as long as it is open and has a slot. -/
theorem admits_iff : g.admits = true ↔ g.closed = false ∧ 0 < g.available := by
  simp [admits]

/-- Whoever takes a permit and hands it back leaves the gate as it was. -/
theorem release_of_acquire? {inside : Gate} (acquired : g.acquire? = some inside)
    (room : g.available ≤ g.capacity) : inside.release = g := by
  cases admits : g.admits with
  | false =>
    rw [acquire?_of_refuses admits] at acquired
    cases acquired
  | true =>
    have free := (admits_iff.mp admits).2
    have same : min (g.available - 1 + 1) g.capacity = g.available := by omega
    rw [acquire?_of_admits admits] at acquired
    cases acquired
    simp only [release, same]

end Gate

/-- A turnstile lets somebody through exactly if its gate admits. -/
theorem Turnstile.acquire_fst (t : Turnstile) : t.acquire.1 = t.gate.admits := by
  unfold acquire
  cases admits : t.gate.admits with
  | true => rw [Gate.acquire?_of_admits admits]
  | false => rw [Gate.acquire?_of_refuses admits]

/-- A gate, those who wait at it, and those who hold a permit, as often as they hold one. -/
structure Crowd (ι : Type) where
  gate : Gate
  waiting : List ι := []
  permits : List ι := []
deriving DecidableEq, Repr

namespace Crowd

variable {ι : Type}

/-- What can happen at a gate. -/
inductive Event (ι : Type) where
  /-- Someone comes for a permit, and waits for one if that is necessary and they may. -/
  | come (who : ι) (patient : Bool)
  /-- Someone who waits is woken, and waits on if that is necessary. -/
  | wake (who : ι)
  /-- The wait of someone is over. -/
  | expire (who : ι)
  /-- Someone hands back a permit that they hold. -/
  | handBack (who : ι)
  | close
deriving DecidableEq, Repr

/-- Nobody at a new gate. -/
def around (capacity : Nat) : Crowd ι := { gate := .make capacity }

/-- The gate with the number of the permits, whoever holds them. -/
def turnstile (c : Crowd ι) : Turnstile := ⟨c.gate, c.permits.length⟩

/-- Someone looks at the gate, and goes in, waits, or goes away. At a closed gate nobody waits. -/
def look (c : Crowd ι) (who : ι) (patient : Bool) : Crowd ι :=
  match c.gate.acquire? with
  | some inside => { c with gate := inside, permits := who :: c.permits }
  | none => if patient && !c.gate.closed then { c with waiting := who :: c.waiting } else c

section Looks

variable (c : Crowd ι) (who : ι) (patient : Bool)

/-- Whoever looks at a gate that admits has a permit afterwards. -/
theorem look_of_admits (admits : c.gate.admits = true) :
    c.look who patient =
      { c with
        gate := { c.gate with available := c.gate.available - 1 }
        permits := who :: c.permits } := by
  rw [look, Gate.acquire?_of_admits admits]

/-- Whoever looks at a gate that does not admit waits there or goes away. -/
theorem look_of_refuses (refuses : c.gate.admits = false) :
    c.look who patient =
      if patient && !c.gate.closed then { c with waiting := who :: c.waiting } else c := by
  rw [look, Gate.acquire?_of_refuses refuses]

/-- Looking at a gate neither opens nor closes it. -/
theorem closed_look : (c.look who patient).gate.closed = c.gate.closed := by
  cases admits : c.gate.admits with
  | true => rw [c.look_of_admits who patient admits]
  | false =>
    rw [c.look_of_refuses who patient admits]
    split <;> rfl

/-- A look without patience is an attempt at the turnstile. -/
theorem turnstile_look : (c.look who false).turnstile = c.turnstile.acquire.2 := by
  have gate : c.turnstile.gate = c.gate := rfl
  unfold Turnstile.acquire look
  rw [gate]
  cases c.gate.acquire? with
  | some inside => rfl
  | none => rfl

variable {c}

/-- Whoever looks at a closed gate goes away. -/
theorem look_of_closed (closed : c.gate.closed = true) : c.look who patient = c := by
  have refuses : c.gate.admits = false := by
    rw [Bool.eq_false_iff, ne_eq, Gate.admits_iff, closed]
    simp
  rw [c.look_of_refuses who patient refuses, closed]
  simp

end Looks

/-- Every slot is free or taken by one of the permits. -/
structure Conserved (capacity : Nat) (c : Crowd ι) : Prop where
  limit : c.gate.capacity = max capacity 1
  slots : c.gate.available + c.permits.length = max capacity 1

namespace Conserved

variable {capacity : Nat} {c : Crowd ι}

/-- All slots of a new gate are free. -/
theorem around (capacity : Nat) : Conserved capacity (Crowd.around capacity : Crowd ι) where
  limit := rfl
  slots := rfl

/-- A look takes a slot for a permit, or leaves the slots alone. -/
theorem look (conserved : Conserved capacity c) (who : ι) (patient : Bool) :
    Conserved capacity (c.look who patient) := by
  cases admits : c.gate.admits with
  | true =>
    have free := (Gate.admits_iff.mp admits).2
    have slots := conserved.slots
    rw [c.look_of_admits who patient admits]
    refine ⟨conserved.limit, ?_⟩
    simp only [List.length_cons]
    omega
  | false =>
    rw [c.look_of_refuses who patient admits]
    split
    next => exact ⟨conserved.limit, conserved.slots⟩
    next => exact conserved

/-- Whoever looks at an open gate goes in if fewer permits are out than there are slots. -/
theorem permits_look (conserved : Conserved capacity c) (opened : c.gate.closed = false) (who : ι)
    (patient : Bool) : (c.look who patient).permits =
      if c.permits.length < max capacity 1 then who :: c.permits else c.permits := by
  have slots := conserved.slots
  have free : 0 < c.gate.available ↔ c.permits.length < max capacity 1 := by omega
  cases admits : c.gate.admits with
  | true =>
    have room := free.mp (Gate.admits_iff.mp admits).2
    rw [c.look_of_admits who patient admits, if_pos room]
  | false =>
    have full : ¬ c.permits.length < max capacity 1 := by
      intro room
      rw [Gate.admits_iff.mpr ⟨opened, free.mpr room⟩] at admits
      cases admits
    rw [c.look_of_refuses who patient admits, if_neg full]
    split <;> rfl

/-- An attempt succeeds exactly if the gate is open and has fewer permits out than slots. -/
theorem acquire_turnstile (conserved : Conserved capacity c) : c.turnstile.acquire.1 =
    (!c.gate.closed && decide (c.permits.length < max capacity 1)) := by
  have slots := conserved.slots
  have free : 0 < c.gate.available ↔ c.permits.length < max capacity 1 := by omega
  rw [Turnstile.acquire_fst, turnstile, Gate.admits, decide_eq_decide.mpr free]

/-- While a permit is out there is a slot that is not free, so that there is always room for it when
it is handed back. -/
theorem release_eq (conserved : Conserved capacity c) {who : ι} (holds : who ∈ c.permits) :
    c.gate.release = { c.gate with available := c.gate.available + 1 } := by
  have out := List.length_pos_of_mem holds
  have slots := conserved.slots
  have room : c.gate.available + 1 ≤ c.gate.capacity := by
    rw [conserved.limit]
    omega
  rw [Gate.release, Nat.min_eq_left room]

end Conserved

variable [DecidableEq ι]

/-- Someone no longer waits. -/
def leave (c : Crowd ι) (who : ι) : Crowd ι := { c with waiting := c.waiting.erase who }

/-- What an event leads to. -/
def next (c : Crowd ι) : Event ι → Crowd ι
  | .come who patient => c.look who patient
  | .wake who => if who ∈ c.waiting then (c.leave who).look who true else c
  | .expire who => if who ∈ c.waiting then (c.leave who).look who false else c
  | .handBack who =>
    if who ∈ c.permits then
      { c with gate := c.gate.release, permits := c.permits.erase who }
    else c
  | .close => { c with gate := c.gate.close }

/-- What a sequence of events leads to. -/
def after (c : Crowd ι) (events : List (Event ι)) : Crowd ι := events.foldl next c

/-- All that an event can come to. -/
inductive Turn (c : Crowd ι) : Event ι → Crowd ι → Prop where
  | idle {event : Event ι} (stays : event ≠ .close) : c.Turn event c
  /-- Someone looks at the gate for the first time. -/
  | look {event : Event ι} (stays : event ≠ .close) (who : ι) (patient : Bool) :
      c.Turn event (c.look who patient)
  /-- Someone who has been waiting looks at the gate again. -/
  | again {event : Event ι} (stays : event ≠ .close) (who : ι) (patient : Bool) :
      c.Turn event ((c.leave who).look who patient)
  | handBack {event : Event ι} (stays : event ≠ .close) {who : ι} (holds : who ∈ c.permits) :
      c.Turn event { c with gate := c.gate.release, permits := c.permits.erase who }
  | close : c.Turn .close { c with gate := c.gate.close }

/-- Every event comes to one of these. -/
theorem next_turn (c : Crowd ι) (event : Event ι) : c.Turn event (c.next event) := by
  cases event with
  | come who patient => exact .look (by nofun) who patient
  | wake who =>
    rw [next]
    split
    next => exact .again (by nofun) who true
    next => exact .idle (by nofun)
  | expire who =>
    rw [next]
    split
    next => exact .again (by nofun) who false
    next => exact .idle (by nofun)
  | handBack who =>
    rw [next]
    split
    next holds => exact .handBack (by nofun) holds
    next => exact .idle (by nofun)
  | close => exact .close

namespace Conserved

variable {capacity : Nat} {c : Crowd ι}

/-- Who waits is of no importance. -/
theorem leave (conserved : Conserved capacity c) (who : ι) : Conserved capacity (c.leave who) :=
  ⟨conserved.limit, conserved.slots⟩

/-- A permit that is handed back frees its slot. -/
theorem handBack (conserved : Conserved capacity c) {who : ι} (holds : who ∈ c.permits) :
    Conserved capacity { c with gate := c.gate.release, permits := c.permits.erase who } := by
  have out := List.length_pos_of_mem holds
  have slots := conserved.slots
  rw [conserved.release_eq holds]
  refine ⟨conserved.limit, ?_⟩
  simp only [List.length_erase_of_mem holds]
  omega

/-- No event loses a slot or makes one up. -/
theorem next (conserved : Conserved capacity c) (event : Event ι) :
    Conserved capacity (c.next event) := by
  have turn := c.next_turn event
  generalize c.next event = later at turn ⊢
  cases turn with
  | idle => exact conserved
  | look _ who patient => exact conserved.look who patient
  | again _ who patient => exact (conserved.leave who).look who patient
  | handBack _ holds => exact conserved.handBack holds
  | close => exact ⟨conserved.limit, conserved.slots⟩

/-- No run of events loses a slot or makes one up. -/
theorem after (conserved : Conserved capacity c) (events : List (Event ι)) :
    Conserved capacity (c.after events) := by
  induction events generalizing c with
  | nil => exact conserved
  | cons event events ih => exact ih (conserved.next event)

end Conserved

section Closing

variable (c : Crowd ι)

/-- Only closing closes a gate, and nothing opens it again. -/
theorem closed_next (event : Event ι) :
    (c.next event).gate.closed = (c.gate.closed || event = .close) := by
  have turn := c.next_turn event
  generalize c.next event = later at turn ⊢
  cases turn with
  | idle stays => simp [stays]
  | look stays who patient => simp [stays, closed_look]
  | again stays who patient => simp [stays, closed_look, leave]
  | handBack stays => simp [stays, Gate.release]
  | close => simp [Gate.close]

/-- A gate is closed once it has been closed, and only then. -/
theorem closed_after (events : List (Event ι)) :
    (c.after events).gate.closed = (c.gate.closed || decide (.close ∈ events)) := by
  induction events generalizing c with
  | nil => simp [after]
  | cons event events ih =>
    have next := ih (c.next event)
    rw [closed_next, Bool.or_assoc] at next
    simpa [after, eq_comm] using next

/-- At a closed gate permits are handed back and waits end, and that is all. -/
theorem next_of_closed {c : Crowd ι} (closed : c.gate.closed = true) (event : Event ι) :
    (c.next event).permits.Sublist c.permits ∧ (c.next event).waiting.Sublist c.waiting := by
  have turn := c.next_turn event
  generalize c.next event = later at turn ⊢
  cases turn with
  | idle => exact ⟨.refl _, .refl _⟩
  | look _ who patient =>
    rw [look_of_closed who patient closed]
    exact ⟨.refl _, .refl _⟩
  | again _ who patient =>
    have left : (c.leave who).gate.closed = true := closed
    rw [look_of_closed who patient left]
    exact ⟨.refl _, List.erase_sublist⟩
  | handBack => exact ⟨List.erase_sublist, .refl _⟩
  | close => exact ⟨.refl _, .refl _⟩

end Closing

/-- As long as nobody waits, a crowd is a turnstile. -/
theorem turnstile_next (c : Crowd ι) (who : ι) :
    (c.next (.come who false)).turnstile = c.turnstile.acquire.2 ∧
    (who ∈ c.permits → (c.next (.handBack who)).turnstile = c.turnstile.release.2) ∧
    (c.next .close).turnstile = c.turnstile.close := by
  refine ⟨c.turnstile_look who, ?_, rfl⟩
  intro holds
  have out := List.length_pos_of_mem holds
  have permits : c.permits.length = (c.permits.erase who).length + 1 := by
    rw [List.length_erase_of_mem holds]
    omega
  simp only [next, if_pos holds, turnstile, Turnstile.release, permits]

/-- What a gate promises to those around it. -/
structure Keeps (capacity : Nat) (c : Crowd ι) : Prop where
  /-- Every slot is free or taken by one of the permits. -/
  slots : c.gate.available + c.permits.length = max capacity 1
  /-- A permit that is handed back frees one slot more, also at a closed gate. -/
  frees : ∀ who ∈ c.permits, c.next (.handBack who) =
    { c with
      gate := { c.gate with available := c.gate.available + 1 }
      permits := c.permits.erase who }
  /-- Whoever comes to an open gate is let in at once if fewer permits are out than there are
  slots, and otherwise not. -/
  admits : c.gate.closed = false → ∀ who patient, (c.next (.come who patient)).permits =
    if c.permits.length < max capacity 1 then who :: c.permits else c.permits
  /-- Whoever comes and does not wait is told so, and at a closed gate that there is no permit. -/
  answers : c.turnstile.acquire.1 =
    (!c.gate.closed && decide (c.permits.length < max capacity 1))
  /-- The end of a wait is the same decision once more. -/
  expires : c.gate.closed = false → ∀ who ∈ c.waiting, (c.next (.expire who)).permits =
    if c.permits.length < max capacity 1 then who :: c.permits else c.permits
  /-- At a closed gate nobody gets a permit, and nobody waits who did not wait before. -/
  refuses : c.gate.closed = true → ∀ event,
    (c.next event).permits.Sublist c.permits ∧ (c.next event).waiting.Sublist c.waiting

/-- A gate that has all its slots keeps what it promises. -/
theorem Conserved.keeps {capacity : Nat} {c : Crowd ι} (conserved : Conserved capacity c) :
    Keeps capacity c where
  slots := conserved.slots
  frees := by
    intro who holds
    rw [Crowd.next, if_pos holds, conserved.release_eq holds]
  admits := conserved.permits_look
  answers := conserved.acquire_turnstile
  expires := by
    intro opened who waits
    rw [Crowd.next, if_pos waits]
    exact (conserved.leave who).permits_look opened who false
  refuses := next_of_closed

-- One of two gets the only slot. After closing, the other one goes away, and the slot comes back.
example :
    (around 0 : Crowd Nat).after [.come 1 true, .come 2 true, .close, .handBack 1, .wake 2] =
      { gate := ⟨1, 1, true⟩ } := by
  decide

end Crowd

end HotPath
