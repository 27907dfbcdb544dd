import HotPath.Workload.Basic

/-!
# Assembling workloads

The blocks of a workload work out the distances of their jumps in advance. Code can
also be written from front to back: the instructions are emitted one after another, a jump
forward gets the distance zero at first, and when its target has been reached it is
patched. Patching can fail, so assembling can.

`Workload.build` assembles the program of a workload in this way.
-/

namespace HotPath

/-- A part of an assembly: what it makes of the code that has been emitted before it. -/
abbrev Assembly := Code → Except CodeError Code

namespace Assembly

/-- Emit a block as it stands. -/
def emit (block : Block) : Assembly := fun code => .ok (block.foldl Code.push code)

/-- One part after another. -/
def sequence (first second : Assembly) : Assembly := fun code => first code >>= second

instance : Append Assembly := ⟨sequence⟩

/-- Point a forward jump at the next instruction to be emitted. -/
def patchToHere (jump : Nat) : Assembly := fun code =>
  code.patch jump (code.instructionCount - jump)

/-- Repeat `body` as long as `condition` pushes true. -/
def loop (condition body : Assembly) : Assembly := fun code => do
  let head := code.instructionCount
  let code ← condition code
  let exit := code.instructionCount
  let code ← body (code.emit (.jump (.when false)))
  patchToHere exit (code.emit (.jump .always) (head - code.instructionCount))

/-- Pop a truth value and go around `body` unless it is true. -/
def skipUnless (body : Assembly) : Assembly := fun code => do
  let jump := code.instructionCount
  let code ← body (code.emit (.jump (.when false)))
  patchToHere jump code

end Assembly

namespace Workload

open Assembly

section Code

variable (k : ConstantPlaces)

/-- Run `body` with a slot counting from zero up to and not including what `bound` pushes. -/
def assembleCountedLoop (slot : Nat) (bound : Block) (body : Assembly) : Assembly :=
  emit (clear k slot) ++
    .loop (emit (.make .loadLocal slot :: bound ++ [.make (.compareInt .lt)]))
      (body ++ emit (increment k slot))

/-- The code of the function that does the work; its own index is `index`. -/
def assembleWorker (w : Workload) (index : Nat) : Assembly :=
  match w with
  | counter => assembleCountedLoop k 1 [.make .loadLocal 0] (emit []) ++ emit (returnSlot 1)
  | countdown =>
    emit (clear k 1) ++
    .loop (emit [.make .loadLocal 0, .make .pushInt k.zero, .make (.compareInt .gt)])
      (emit (decrement k 0) ++ emit (increment k 1)) ++
    emit (returnSlot 1)
  | arraySum =>
    emit (clear k 2) ++
    assembleCountedLoop k 1 [.make .loadLocal 0, .make .arrayLength]
      (emit [.make .loadLocal 2, .make .loadLocal 0, .make .loadLocal 1, .make .arrayLoad,
        .make (.intBinary .add), .make .storeLocal 2]) ++
    emit (returnSlot 2)
  | fib =>
    let recur (decrease : Nat) : Assembly := emit
      [.make .loadLocal 0, .make .pushInt decrease, .make (.intBinary .sub), .make .call index]
    emit [.make .loadLocal 0, .make .pushInt k.two, .make (.compareInt .lt)] ++
    .skipUnless (emit (returnSlot 0)) ++
    recur k.one ++ recur k.two ++ emit [.make (.intBinary .add), .make .ret]

/-- The code of the function that calls the worker and prints the total. -/
def assembleMain (w : Workload) (worker : Nat) : Assembly :=
  match w with
  | arraySum =>
    emit [.make .pushInt k.iterations, .make .newArray ElementType.int.tag,
      .make .storeLocal 0] ++
    assembleCountedLoop k 1 [.make .pushInt k.iterations]
      (emit [.make .loadLocal 0, .make .loadLocal 1, .make .loadLocal 1, .make .arrayStore]) ++
    emit (clear k 3) ++
    assembleCountedLoop k 2 [.make .pushInt k.calls]
      (emit (addCall 3 [.make .loadLocal 0] worker)) ++
    emit (printSlot 3)
  | _ =>
    emit (clear k 1) ++
    assembleCountedLoop k 0 [.make .pushInt k.calls]
      (emit (addCall 1 [.make .pushInt k.iterations] worker)) ++
    emit (printSlot 1)

end Code

/-- Assemble the program of a workload. The worker comes first. -/
def build (w : Workload) (calls iterations : UInt32) : Except CodeError Program := do
  let d : Draft := {}
  let (k, d) := places d calls iterations
  let index := d.nextFunction
  let workerCode ← w.assembleWorker k index .empty
  let (worker, d) := d.addFunction ((w.worker k index).withCode workerCode)
  let mainCode ← w.assembleMain k worker .empty
  let (_, d) := d.addFunction ((w.main k worker).withCode mainCode)
  return (d.setEntry "main").finish

end Workload

end HotPath
