/-!
# The admission gate

A gate lets a limited number of jobs run at once. Taking a permit succeeds
while there is a free slot and the gate is open; handing it back frees the slot
again, also after the gate has been closed. Someone who has to wait takes the
same decision again when the wait is over.

A `Turnstile` is a gate together with the permits that are out.
-/

namespace HotPath

/-- A gate with a limited number of slots. -/
structure Gate where
  capacity : Nat
  /-- The slots that are free. -/
  available : Nat
  closed : Bool
deriving DecidableEq, Repr, Inhabited

namespace Gate

/-- An open gate; it has at least one slot. -/
def make (capacity : Nat) : Gate := ⟨max capacity 1, max capacity 1, false⟩

/-- Whether a permit could be had now. -/
def admits (g : Gate) : Bool := !g.closed && 0 < g.available

/-- Take a permit, if there is one to be had. -/
def acquire? (g : Gate) : Option Gate :=
  if g.admits then some { g with available := g.available - 1 } else none

/-- Hand a permit back. -/
def release (g : Gate) : Gate := { g with available := min (g.available + 1) g.capacity }

/-- Refuse permits from now on. -/
def close (g : Gate) : Gate := { g with closed := true }

end Gate

/-- A gate with the number of permits that are out. -/
structure Turnstile where
  gate : Gate
  held : Nat := 0
deriving DecidableEq, Repr, Inhabited

namespace Turnstile

/-- Take a permit, and tell whether there was one to be had. -/
def acquire (t : Turnstile) : Bool × Turnstile :=
  match t.gate.acquire? with
  | some gate => (true, ⟨gate, t.held + 1⟩)
  | none => (false, t)

/-- Hand one of the permits back, and tell whether there was one. -/
def release (t : Turnstile) : Bool × Turnstile :=
  match t.held with
  | 0 => (false, t)
  | held + 1 => (true, ⟨t.gate.release, held⟩)

/-- Close the gate. The permits that are out stay out. -/
def close (t : Turnstile) : Turnstile := { t with gate := t.gate.close }

end Turnstile

end HotPath
