import HotPath.Code.Function
import HotPath.Store.Locals

/-!
# Calls in progress

A `Frame` is a call in progress. It keeps the version of its function that it was entered
with, so that a version published later is seen by later calls only.

A `CallStack` holds the frames of all calls in progress, the innermost first, together with
their number, which is asked for at every call. Apart from that it is the list of its
frames: `ext` says so, and `pop?` undoes `push`.
-/

namespace HotPath

/-- A call in progress. -/
structure Frame where
  /-- The version of the function that was entered. -/
  function : Function
  /-- The index of the function in the program. -/
  index : Nat
  locals : Locals
  /-- The address of the instruction that the frame stands at. While a call that it made is in
  progress that is the call. -/
  pc : Nat
  /-- The address at which the caller goes on; the outermost frame has none. -/
  returnAddress : Option Nat
  /-- The height of the operand stack when the frame was entered. -/
  base : Nat
deriving DecidableEq, Repr, Inhabited

namespace Frame

/-- A frame at the start of a function, with empty slots. -/
def make (function : Function) (index : Nat) (returnAddress : Option Nat) (base : Nat) : Frame :=
  { function, index, locals := .blank function.localCount, pc := 0, returnAddress, base }

/-- Whether this is the outermost frame. -/
def isEntry (f : Frame) : Bool := f.returnAddress.isNone

/-- The frame with the arguments in its first slots. -/
def withArguments (f : Frame) (arguments : Array Value) : Frame :=
  { f with locals :=
      ⟨arguments ++ Array.replicate (f.function.localCount - arguments.size) Value.null⟩ }

end Frame

/-- The calls in progress. -/
structure CallStack where
  /-- The frames, the innermost first. -/
  frames : List Frame
  /-- The number of frames. -/
  depth : Nat
  depth_eq : depth = frames.length
deriving DecidableEq, Repr

namespace CallStack

/-- No call at all. -/
def empty : CallStack := ⟨[], 0, rfl⟩

instance : Inhabited CallStack := ⟨empty⟩

@[ext] theorem ext {a b : CallStack} (frames : a.frames = b.frames) : a = b := by
  obtain ⟨_, _, rfl⟩ := a
  obtain ⟨_, _, rfl⟩ := b
  cases frames
  rfl

/-- Enter a frame. -/
@[inline] def push (calls : CallStack) (frame : Frame) : CallStack :=
  ⟨frame :: calls.frames, calls.depth + 1, by rw [calls.depth_eq, List.length_cons]⟩

/-- The innermost frame and the others, if there is a call. -/
@[inline] def pop? : CallStack → Option (Frame × CallStack)
  | ⟨[], _, _⟩ => none
  | ⟨frame :: callers, depth, depth_eq⟩ =>
    some (frame, ⟨callers, depth - 1, by rw [depth_eq, List.length_cons, Nat.add_sub_cancel]⟩)

@[simp] theorem frames_empty : empty.frames = [] := rfl

@[simp] theorem frames_push (calls : CallStack) (frame : Frame) :
    (calls.push frame).frames = frame :: calls.frames := rfl

@[simp] theorem pop?_empty : empty.pop? = none := rfl

@[simp] theorem pop?_push (calls : CallStack) (frame : Frame) :
    (calls.push frame).pop? = some (frame, calls) := rfl

theorem push_inj {calls others : CallStack} {frame other : Frame}
    (same : calls.push frame = others.push other) : frame = other ∧ calls = others := by
  have frames := congrArg CallStack.frames same
  obtain ⟨frame, callers⟩ := List.cons.inj frames
  exact ⟨frame, ext callers⟩

theorem eq_empty_or_push (calls : CallStack) :
    calls = empty ∨ ∃ frame callers, calls = push callers frame := by
  obtain ⟨frames, depth, rfl⟩ := calls
  cases frames with
  | nil => exact .inl rfl
  | cons frame callers => exact .inr ⟨frame, ⟨callers, callers.length, rfl⟩, rfl⟩

end CallStack

end HotPath
