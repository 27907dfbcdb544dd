import HotPath.Machine.Step

/-!
# Scripted replacements

A profiler that follows a script: it writes down every call and offers each
replacement from a set number of calls on.
-/

namespace HotPath

/-- A replacement for the function with an index, on offer after a number of calls. -/
structure Swap where
  index : Nat
  /-- The number of calls, of all functions together, that have to come first. -/
  delay : Nat
  function : Function
deriving Repr, Inhabited

/-- The replacements to come and the calls so far. -/
structure Script where
  swaps : List Swap
  /-- The index and the name of every function called, the latest last. -/
  log : Array (Nat × String) := #[]
deriving Repr, Inhabited

namespace Script

/-- Write every call down; offer the first replacement in the script whose time has come. -/
def profiler : Profiler Script where
  recordCall index f s := { s with log := s.log.push (index, f.name) }
  replacement? index s :=
    (s.swaps.find? fun swap => swap.index = index ∧ swap.delay ≤ s.log.size).map Swap.function

end Script

end HotPath
