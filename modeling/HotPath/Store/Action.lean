import HotPath.Value.Fault

/-!
# Actions

An action runs on a state and either gives an answer or faults. What it did to
the state before a fault stays done: whoever handles the fault finds the state
as the action left it. `onLeft` and `onRight` run an action on one half of a pair.
-/

namespace HotPath

/-- A computation on a state that may fault and keeps the state when it does. -/
abbrev Action (σ : Type) := EStateM Fault σ

namespace Action

variable {σ τ α β : Type}

theorem bind_apply (first : Action σ α) (rest : α → Action σ β) (state : σ) :
    (first >>= rest) state =
      match first state with
      | .ok answer state => rest answer state
      | .error fault state => .error fault state := by
  change EStateM.bind first rest state = _
  unfold EStateM.bind
  cases first state <;> rfl

theorem bind_of_ok {first : Action σ α} {state after : σ} {answer : α}
    (ran : first state = .ok answer after) (rest : α → Action σ β) :
    (first >>= rest) state = rest answer after := by
  rw [bind_apply, ran]

theorem bind_of_error {first : Action σ α} {state after : σ} {fault : Fault}
    (ran : first state = .error fault after) (rest : α → Action σ β) :
    (first >>= rest) state = .error fault after := by
  rw [bind_apply, ran]

@[simp] theorem pure_apply (answer : α) (state : σ) :
    (pure answer : Action σ α) state = .ok answer state := rfl

@[simp] theorem throw_apply (fault : Fault) (state : σ) :
    (throw fault : Action σ α) state = .error fault state := rfl

theorem discard_apply (action : Action σ α) (state : σ) :
    (discard action : Action σ Unit) state =
      match action state with
      | .ok _ state => .ok () state
      | .error fault state => .error fault state := by
  change EStateM.map (fun _ => ()) action state = _
  unfold EStateM.map
  cases action state <;> rfl

/-- Run an action on the left half of a pair of states. -/
@[inline] def onLeft (action : Action σ α) : Action (σ × τ) α := fun (left, right) =>
  match action left with
  | .ok answer left => .ok answer (left, right)
  | .error fault left => .error fault (left, right)

/-- Run an action on the right half of a pair of states. -/
@[inline] def onRight (action : Action τ α) : Action (σ × τ) α := fun (left, right) =>
  match action right with
  | .ok answer right => .ok answer (left, right)
  | .error fault right => .error fault (left, right)

/-- Give an answer that does not change the state, or fault. -/
@[inline] def ofExcept (answer : σ → Except Fault α) : Action σ α := fun state =>
  match answer state with
  | .ok answer => .ok answer state
  | .error fault => .error fault state

/-- Take an answer that was worked out before. -/
@[inline] def settle (answer : Except Fault α) : Action σ α := ofExcept fun _ => answer

/-- Run an action and hold back its fault, so that something else can be done first. -/
@[inline] def attempt (action : Action σ α) : Action σ (Except Fault α) := fun state =>
  match action state with
  | .ok answer state => .ok (.ok answer) state
  | .error fault state => .ok (.error fault) state

/-- The state that an action leaves behind, whether it faults or not. -/
def after (action : Action σ α) (state : σ) : σ :=
  match action state with
  | .ok _ state => state
  | .error _ state => state

/-- Run one action after another even if the first one faults. If both fault, the fault of the
first one is reported. -/
@[inline] def both (first second : Action σ Unit) : Action σ Unit := fun state =>
  match first state with
  | .ok _ state => second state
  | .error fault state => .error fault (second.after state)

/-- What an action answers, without the state. -/
def outcome (action : Action σ α) (state : σ) : Except Fault α :=
  match action state with
  | .ok answer _ => .ok answer
  | .error fault _ => .error fault

end Action

end HotPath
