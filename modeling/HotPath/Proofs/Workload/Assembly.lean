import HotPath.Proofs.Code.Writing
import HotPath.Workload.Assembly

/-!
# Assembling gives the blocks

Emitting and patching a part of an assembly comes to appending one block, in which the
distances of the jumps have been worked out: `Appends` says so of each part. As every
patch is of a jump that has been emitted, assembling a workload never fails, and it gives
the program of the workload (`build_eq`).
-/

namespace HotPath

namespace Assembly

/-- A part of an assembly comes to appending a block. -/
def Appends (part : Assembly) (block : Block) : Prop :=
  ∀ before, part (.ofList before) = .ok (.ofList (before ++ block))

/-- Emitting a block appends it. -/
theorem emit_appends (block : Block) : (emit block).Appends block := by
  intro before
  rw [emit, Code.ofList_append]

/-- Assemblies that are done in a row append their blocks in a row. -/
theorem Appends.append {first second : Assembly} {block next : Block}
    (appends : first.Appends block) (thenAppends : second.Appends next) :
    (first ++ second).Appends (block ++ next) := by
  intro before
  change first (.ofList before) >>= second = _
  rw [appends before, ← List.append_assoc]
  exact thenAppends (before ++ block)

/-- The forward jump of a loop gets its distance when the loop has been emitted. -/
theorem Appends.loop {condition body : Assembly} {test block : Block}
    (tests : condition.Appends test) (appends : body.Appends block) :
    (Assembly.loop condition body).Appends (Block.loop test block) := by
  intro before
  have exits : (Code.ofList (before ++ test)).emit (.jump (.when false)) =
      .ofList (before ++ test ++ [.make (.jump (.when false))]) := Code.ofList_concat _ _
  have repeats (distance : Int) :
      (Code.ofList (before ++ test ++ [.make (.jump (.when false))] ++ block)).emit
          (.jump .always) distance =
        .ofList ((before ++ test) ++ .make (.jump (.when false)) ::
          (block ++ [.make (.jump .always) distance])) := by
    rw [Code.emit, Code.ofList_concat]
    simp only [List.append_assoc, List.cons_append, List.nil_append]
  have patched (distance : Int) := Code.patch_ofList (before ++ test)
    (block ++ [.make (.jump .always) distance]) (.make (.jump (.when false)))
  simp only [List.length_append] at patched
  simp only [Assembly.loop, tests before, bind, Except.bind, exits, appends _, repeats,
    patchToHere, Code.instructionCount_ofList, List.length_append, List.length_cons,
    List.length_nil, patched, Block.loop, Instruction.opcode_make]
  have forward : ((before.length + test.length + (block.length + (0 + 1) + 1) : Nat) : Int) -
      (before.length + test.length : Nat) = (block.length : Int) + 2 := by omega
  have back : (before.length : Int) -
      (before.length + test.length + (0 + 1) + block.length : Nat) =
        -((test.length : Int) + 1 + block.length) := by omega
  rw [forward, back]
  simp only [List.append_assoc, List.cons_append, List.nil_append]

/-- The jump around a body gets its distance when the body has been emitted. -/
theorem Appends.skipUnless {body : Assembly} {block : Block} (appends : body.Appends block) :
    (Assembly.skipUnless body).Appends (Block.skipUnless block) := by
  intro before
  have skips : (Code.ofList before).emit (.jump (.when false)) =
      .ofList (before ++ [.make (.jump (.when false))]) := Code.ofList_concat _ _
  have patched := Code.patch_ofList before block (.make (.jump (.when false)))
  have emitted : before ++ [Instruction.make (.jump (.when false))] ++ block =
      before ++ .make (.jump (.when false)) :: block := by
    rw [List.append_assoc, List.cons_append, List.nil_append]
  have forward : ((before.length + (block.length + 1) : Nat) : Int) - before.length =
      (block.length : Int) + 1 := by omega
  simp only [Assembly.skipUnless, bind, Except.bind, skips, appends _, emitted, patchToHere,
    Code.instructionCount_ofList, List.length_append, List.length_cons, patched, forward,
    Block.skipUnless, Instruction.opcode_make]

/-- An assembly that appends a block makes code of it. -/
theorem Appends.assembles {part : Assembly} {block : Block} (appends : part.Appends block) :
    part .empty = .ok (.ofList block) := appends []

end Assembly

namespace Workload

open Assembly

variable (k : ConstantPlaces)

/-- The assembly of a counted loop appends the loop. -/
theorem assembleCountedLoop_appends (slot : Nat) (bound : Block) {body : Assembly} {block : Block}
    (appends : body.Appends block) :
    (assembleCountedLoop k slot bound body).Appends (countedLoop k slot bound block) :=
  (emit_appends _).append ((emit_appends _).loop (appends.append (emit_appends _)))

/-- The worker that is assembled is the one that the workload describes. -/
theorem assembleWorker_eq (w : Workload) (index : Nat) :
    w.assembleWorker k index .empty = .ok (w.worker k index).code := by
  cases w with
  | counter =>
    refine Appends.assembles (.append ?_ (emit_appends _))
    exact assembleCountedLoop_appends k 1 _ (emit_appends [])
  | countdown =>
    refine Appends.assembles (.append (.append (emit_appends _) ?_) (emit_appends _))
    exact (emit_appends _).loop ((emit_appends _).append (emit_appends _))
  | arraySum =>
    refine Appends.assembles (.append (.append (emit_appends _) ?_) (emit_appends _))
    exact assembleCountedLoop_appends k 1 _ (emit_appends _)
  | fib =>
    have smallest := (emit_appends (returnSlot 0)).skipUnless
    have compared := (emit_appends [.make .loadLocal 0, .make .pushInt k.two,
      .make (.compareInt .lt)]).append smallest
    exact (((compared.append (emit_appends _)).append (emit_appends _)).append
      (emit_appends _)).assembles

/-- The entry that is assembled is the one that the workload describes. -/
theorem assembleMain_eq (w : Workload) (worker : Nat) :
    w.assembleMain k worker .empty = .ok (w.main k worker).code := by
  have scalar : (emit (clear k 1) ++ assembleCountedLoop k 0 [.make .pushInt k.calls]
      (emit (addCall 1 [.make .pushInt k.iterations] worker)) ++ emit (printSlot 1)).Appends
        (clear k 1 ++ countedLoop k 0 [.make .pushInt k.calls]
          (addCall 1 [.make .pushInt k.iterations] worker) ++ printSlot 1) :=
    ((emit_appends _).append (assembleCountedLoop_appends k 0 _ (emit_appends _))).append
      (emit_appends _)
  cases w with
  | counter => exact scalar.assembles
  | countdown => exact scalar.assembles
  | fib => exact scalar.assembles
  | arraySum =>
    have fills := assembleCountedLoop_appends k 1 [.make .pushInt k.iterations]
      (emit_appends [.make .loadLocal 0, .make .loadLocal 1, .make .loadLocal 1, .make .arrayStore])
    have adds := assembleCountedLoop_appends k 2 [.make .pushInt k.calls]
      (emit_appends (addCall 3 [.make .loadLocal 0] worker))
    have created := (emit_appends [.make .pushInt k.iterations,
      .make .newArray ElementType.int.tag, .make .storeLocal 0]).append fills
    exact (((created.append (emit_appends (clear k 3))).append adds).append
      (emit_appends (printSlot 3))).assembles

/-- Assembling a workload does not fail, and gives its program. -/
theorem build_eq (w : Workload) (calls iterations : UInt32) :
    w.build calls iterations = .ok (w.program calls iterations) := by
  unfold build program
  simp only [assembleWorker_eq, assembleMain_eq, bind, Except.bind]
  rfl

end Workload

end HotPath
