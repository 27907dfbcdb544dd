import HotPath.Machine.Step

/-!
# Calls from the host

The host calls a function by its name and passes host values. They are checked
against the declared parameters before anything happens; then arrays are put
on the heap, the function runs, and the answer is copied out.
-/

namespace HotPath

namespace Function

/-- What is wrong with the arguments of a call, if anything: too few of them, too many, or the
first one of a wrong type. -/
def checkArguments (f : Function) (arguments : List HostValue) : Except Fault Unit :=
  if arguments.length < f.arity then .error .stackUnderflow
  else if f.arity < arguments.length then .error (.invalidLocalIndex f.arity f.arity)
  else
    match (f.parameters.zip arguments).find? fun (p, value) => p.type ≠ value.type with
    | some (p, value) =>
      .error (.invalidValueType (.declared p.type) (.declared value.type))
    | none => .ok ()

end Function

namespace Machine

/-- More instructions than any machine will ever execute. -/
def unbounded : Nat := 0x4000000000000000

/-- The function that a call by name runs, if there is one and it takes these arguments. -/
def entryOf (p : Program) (name : String) (arguments : List HostValue) : Except Fault Nat :=
  match p.indexOf? name with
  | none => .error (.invalidFunctionIndex p.functions.size)
  | some index =>
    match p.functions[index]? with
    | none => .error (.invalidFunctionIndex index)
    | some f => (f.checkArguments arguments).map fun _ => index

variable {σ : Type}

/-- Call a function by its name. A call that is not admitted leaves the machine as it is. -/
def call [Numbering] (p : Program) (profiler : Profiler σ) (fuel : Nat) (name : String)
    (arguments : List HostValue) (s : σ) (m : Machine) : Status σ (Option HostValue) :=
  match entryOf p name arguments with
  | .error fault => .faulted fault s m
  | .ok index =>
    let (values, heap) := m.heap.importAll arguments
    match execute p profiler fuel index values s { m with heap } with
    | .running s m => .running s m
    | .faulted fault s m => .faulted fault s m
    | .finished none s m => .finished none s m
    | .finished (some value) s m =>
      match onHeap (Heap.exportHost value) m with
      | .ok answer m => .finished answer s m
      | .error fault m => .faulted fault s m

/-- Call the function that the program starts with. -/
def callEntry [Numbering] (p : Program) (profiler : Profiler σ) (fuel : Nat)
    (arguments : List HostValue) (s : σ) (m : Machine) : Status σ (Option HostValue) :=
  call p profiler fuel p.entry arguments s m

namespace Narrow

/-- Execute one instruction where ids have 32 bits for the number of a slot. -/
abbrev step := @Machine.step σ .low32

/-- Execute at most `fuel` instructions where ids have 32 bits for the number of a slot. -/
abbrev run := @Machine.run σ .low32

/-- Call a function by its name where ids have 32 bits for the number of a slot. -/
abbrev call := @Machine.call σ .low32

end Narrow

/-- The result code of a call that has ended, with its answer if it succeeded. -/
def resultOf {α : Type} : Except Fault (Option α) → ResultCode × Option α
  | .ok answer => (.success, answer)
  | .error fault => (fault.code, none)

end Machine

end HotPath
