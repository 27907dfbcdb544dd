import HotPath.Code.Draft

/-!
# Workloads

A workload is a program with one function that does the work and a `main` that calls
it a number of times, adds up what it returns, and prints the total. The
number of calls and the size of each piece of work are parameters; both end up
in the integer constants of the program.

The code is put together from blocks with `loop` and `skipUnless`, which work out the
distances of their jumps from the lengths of the blocks. `expectedTotal` is the total
without running anything.
-/

namespace HotPath

/-- Which program to run. -/
inductive Workload where
  /-- Count up to the size. -/
  | counter
  /-- Count the size down to zero. -/
  | countdown
  /-- Add up an array of the size. -/
  | arraySum
  /-- The Fibonacci number of the size, by double recursion. -/
  | fib
deriving DecidableEq, Repr, Inhabited

/-- A stretch of code that is entered at its start and left at its end. -/
abbrev Block := List Instruction

namespace Block

/-- Repeat `body` as long as `condition` pushes true. -/
def loop (condition body : Block) : Block :=
  condition ++ [.make (.jump (.when false)) (body.length + 2)] ++ body ++
    [.make (.jump .always) (-(condition.length + 1 + body.length : Int))]

/-- Pop a truth value and go around `body` unless it is true. -/
def skipUnless (body : Block) : Block :=
  .make (.jump (.when false)) (body.length + 1) :: body

end Block

/-- The places of the constants that the code of a workload refers to. -/
structure ConstantPlaces where
  zero : Nat
  one : Nat
  two : Nat
  calls : Nat
  iterations : Nat
deriving DecidableEq, Repr

/-- The Fibonacci numbers modulo `2 ^ 64`, from any two that follow each other. -/
def fibonacciFrom : Nat → Int64 → Int64 → Int64
  | 0, a, _ => a
  | n + 1, a, b => fibonacciFrom n b (a + b)

namespace Workload

/-- Every workload. -/
def all : List Workload := [counter, countdown, arraySum, fib]

def text : Workload → String
  | counter => "counter"
  | countdown => "countdown"
  | arraySum => "array-sum"
  | fib => "fib"

/-- The workload with a name. -/
def ofText? (text : String) : Option Workload := all.find? fun w => w.text = text

/-- The name of the function that does the work. -/
def workerName : Workload → String
  | counter => "count_to"
  | countdown => "countdown"
  | arraySum => "sum"
  | fib => "fib"

def defaultCalls : Workload → UInt32
  | fib => 10
  | _ => 1500

def defaultIterations : Workload → UInt32
  | counter | countdown => 1000
  | arraySum => 256
  | fib => 20

/-- The total that the program prints, modulo `2 ^ 64`. -/
def expectedTotal (w : Workload) (calls iterations : UInt32) : Int64 :=
  let n := iterations.toNat
  let each : Int64 :=
    match w with
    | counter | countdown => Int64.ofNat n
    | arraySum => Int64.ofNat (n * (n - 1) / 2)
    | fib => fibonacciFrom n 0 1
  Int64.ofNat calls.toNat * each

section Code

variable (k : ConstantPlaces)

/-- Put zero into a slot. -/
def clear (slot : Nat) : Block := [.make .pushInt k.zero, .make .storeLocal slot]

/-- Add one to a slot, in the way that can be fused. -/
def increment (slot : Nat) : Block :=
  [.make .loadLocal slot, .make .pushInt k.one, .make (.intBinary .add), .make .storeLocal slot]

/-- Subtract one from a slot, in the way that can be fused. -/
def decrement (slot : Nat) : Block :=
  [.make .loadLocal slot, .make .pushInt k.one, .make (.intBinary .sub), .make .storeLocal slot]

/-- Run `body` with a slot counting from zero up to and not including what `bound` pushes. -/
def countedLoop (slot : Nat) (bound body : Block) : Block :=
  clear k slot ++
    .loop (.make .loadLocal slot :: bound ++ [.make (.compareInt .lt)]) (body ++ increment k slot)

/-- Return what a slot holds. -/
def returnSlot (slot : Nat) : Block := [.make .loadLocal slot, .make .ret]

/-- Add the answer of the worker, called with what `argument` pushes, to a slot. -/
def addCall (slot : Nat) (argument : Block) (worker : Nat) : Block :=
  .make .loadLocal slot :: argument ++
    [.make .call worker, .make (.intBinary .add), .make .storeLocal slot]

/-- Print what a slot holds, and end. -/
def printSlot (slot : Nat) : Block := [.make .loadLocal slot, .make .print, .make .retVoid]

/-- The function that does the work; its own index is `index`. -/
def worker (w : Workload) (index : Nat) : Function :=
  let integer : List Parameter := [⟨"n", .int⟩]
  match w with
  | counter =>
    .make w.workerName integer .int 2 <| .ofList <|
      countedLoop k 1 [.make .loadLocal 0] [] ++ returnSlot 1
  | countdown =>
    .make w.workerName integer .int 2 <| .ofList <|
      clear k 1 ++
      Block.loop [.make .loadLocal 0, .make .pushInt k.zero, .make (.compareInt .gt)]
        (decrement k 0 ++ increment k 1) ++
      returnSlot 1
  | arraySum =>
    .make w.workerName [⟨"xs", .array .int⟩] .int 3 <| .ofList <|
      clear k 2 ++
      countedLoop k 1 [.make .loadLocal 0, .make .arrayLength]
        [.make .loadLocal 2, .make .loadLocal 0, .make .loadLocal 1, .make .arrayLoad,
          .make (.intBinary .add), .make .storeLocal 2] ++
      returnSlot 2
  | fib =>
    let recur (decrease : Nat) : Block :=
      [.make .loadLocal 0, .make .pushInt decrease, .make (.intBinary .sub), .make .call index]
    .make w.workerName integer .int 1 <| .ofList <|
      [.make .loadLocal 0, .make .pushInt k.two, .make (.compareInt .lt)] ++
      Block.skipUnless (returnSlot 0) ++
      recur k.one ++ recur k.two ++ [.make (.intBinary .add), .make .ret]

/-- The function that calls the worker and prints the total. For `arraySum` it first fills an array
with its own indices. -/
def main (w : Workload) (worker : Nat) : Function :=
  match w with
  | arraySum =>
    .make "main" [] .void 4 <| .ofList <|
      [.make .pushInt k.iterations, .make .newArray ElementType.int.tag, .make .storeLocal 0] ++
      countedLoop k 1 [.make .pushInt k.iterations]
        [.make .loadLocal 0, .make .loadLocal 1, .make .loadLocal 1, .make .arrayStore] ++
      clear k 3 ++
      countedLoop k 2 [.make .pushInt k.calls] (addCall 3 [.make .loadLocal 0] worker) ++
      printSlot 3
  | _ =>
    .make "main" [] .void 2 <| .ofList <|
      clear k 1 ++
      countedLoop k 0 [.make .pushInt k.calls]
        (addCall 1 [.make .pushInt k.iterations] worker) ++
      printSlot 1

end Code

/-- Intern the constants of a workload. Equal ones share a place. -/
def places (d : Draft) (calls iterations : UInt32) : ConstantPlaces × Draft :=
  let (atZero, d) := d.addInt 0
  let (atOne, d) := d.addInt 1
  let (atTwo, d) := d.addInt 2
  let (atCalls, d) := d.addInt (Int64.ofNat calls.toNat)
  let (atIterations, d) := d.addInt (Int64.ofNat iterations.toNat)
  (⟨atZero, atOne, atTwo, atCalls, atIterations⟩, d)

/-- The program of a workload. The worker comes first. -/
def program (w : Workload) (calls iterations : UInt32) : Program :=
  let d : Draft := {}
  let (k, d) := places d calls iterations
  let (worker, d) := d.addFunction (w.worker k d.nextFunction)
  let (_, d) := d.addFunction (w.main k worker)
  (d.setEntry "main").finish

end Workload

end HotPath
