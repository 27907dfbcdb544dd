import HotPath.Proofs.Machine.Transparency
import HotPath.Proofs.Tier.Turns
import Mathlib.Data.List.Induction

/-!
# No name that got hot is forgotten

The call that makes a name hot need not be the one that leads to a version: a job can be given
up, and calls go on being counted while a job is under way. What is kept through all this is
stated in terms of the whole history. The count of a name is the number of calls that were to be
counted (`after_callCount`). A name that is not cold got there by being hot (`after_hot`). And a
name that is hot and cold lost its job as the last thing that happened to it (`GivenUp`), so that
the next call that is counted takes on a job again (`crossings_kept`).

The facts about one step are those of `Turn`.
-/

namespace HotPath

namespace Supervised

/-- How many calls are to be counted for a name along a sequence of steps. -/
def countedCalls (s : Supervised) (name : String) : List Event → Nat
  | [] => 0
  | event :: events => (s.counts name event).toNat + (s.next event).countedCalls name events

/-- A job of the name was given up, and that was the last that happened to the name: it has been
cold ever since, and no call has been counted for it. -/
def GivenUp (s : Supervised) (name : String) (events : List Event) : Prop :=
  ∃ before event since job, events = before ++ event :: since ∧
    (s.after before).cancelled? event = some job ∧ job.name = name ∧
    ((s.after before).next event).countedCalls name since = 0 ∧
    ∀ earlier, earlier <+: since →
      (((s.after before).next event).after earlier).optimizer.stateOf name = .cold

section Histories

variable {s : Supervised} {name : String} {events : List Event} {event : Event}

@[simp] theorem after_nil (s : Supervised) : s.after [] = s := rfl

theorem after_append (s : Supervised) (first second : List Event) :
    s.after (first ++ second) = (s.after first).after second := List.foldl_append

theorem after_concat (s : Supervised) (events : List Event) (event : Event) :
    s.after (events ++ [event]) = (s.after events).next event := s.after_append events [event]

/-- The calls that are counted in one part and then in another are counted altogether. -/
theorem countedCalls_append (s : Supervised) (name : String) (first second : List Event) :
    s.countedCalls name (first ++ second) =
      s.countedCalls name first + (s.after first).countedCalls name second := by
  induction first generalizing s with
  | nil => simp [countedCalls]
  | cons event first ih =>
    simp only [List.cons_append, countedCalls, ih, Nat.add_assoc]
    rfl

/-- An event that is not counted does not change the number. -/
theorem countedCalls_concat_of_uncounted
    (uncounted : (s.after events).counts name event = false) :
    s.countedCalls name (events ++ [event]) = s.countedCalls name events := by
  rw [countedCalls_append]
  simp [countedCalls, uncounted]

/-- Nothing that happens changes the settings. -/
theorem after_settings (s : Supervised) (events : List Event) :
    (s.after events).optimizer.settings = s.optimizer.settings := by
  induction events generalizing s with
  | nil => rfl
  | cons event events ih => exact (ih (s.next event)).trans (s.next_settings event)

/-- The count of a name goes up by one with every call that is to be counted, and with no other
step. -/
theorem after_callCount (sound : s.optimizer.Sound) (name : String) (events : List Event) :
    (s.after events).optimizer.callCount name =
      s.optimizer.callCount name + s.countedCalls name events := by
  induction events generalizing s with
  | nil => rfl
  | cons event events ih =>
    have rest := ih (next_sound sound event)
    have turn : (s.next event).optimizer.callCount name =
        s.optimizer.callCount name + (s.counts name event).toNat := by
      cases next_turn sound name event with
      | spared uncounted calls => rw [calls, uncounted]; rfl
      | counted counted calls => rw [calls, counted]; rfl
      | admitted called counted calls => rw [calls, counted]; rfl
      | settled uncounted calls => rw [calls, uncounted]; rfl
      | cancelled uncounted calls => rw [calls, uncounted]; rfl
    rw [turn] at rest
    simp only [countedCalls, ← Nat.add_assoc]
    exact rest

/-- A name that is not cold has been called often enough. -/
theorem next_hot (sound : s.optimizer.Sound)
    (hot : s.optimizer.stateOf name ≠ .cold →
      s.optimizer.settings.threshold ≤ s.optimizer.callCount name)
    (left : (s.next event).optimizer.stateOf name ≠ .cold) :
    s.optimizer.settings.threshold ≤ (s.next event).optimizer.callCount name := by
  cases next_turn sound name event with
  | spared uncounted calls state =>
    rw [calls]
    exact hot (state ▸ left)
  | counted counted calls state =>
    have before := hot (state ▸ left)
    omega
  | admitted called counted calls enough => exact enough
  | settled uncounted calls before =>
    rw [calls]
    exact hot (by simp [before])
  | cancelled uncounted calls before state => exact absurd state left

/-- A name that is not cold has been called as often as the threshold asks for. -/
theorem after_hot (sound : s.optimizer.Sound)
    (hot : s.optimizer.stateOf name ≠ .cold →
      s.optimizer.settings.threshold ≤ s.optimizer.callCount name)
    (left : (s.after events).optimizer.stateOf name ≠ .cold) :
    s.optimizer.settings.threshold ≤ (s.after events).optimizer.callCount name := by
  induction events generalizing s with
  | nil => exact hot left
  | cons event events ih =>
    have settings := s.next_settings event
    have rest := ih (next_sound sound event) (by rw [settings]; exact next_hot sound hot) left
    rwa [settings] at rest

/-- A step that leaves the name alone does not change what was the last that happened to it. -/
theorem GivenUp.concat (given : s.GivenUp name events)
    (uncounted : (s.after events).counts name event = false)
    (cold : (s.after (events ++ [event])).optimizer.stateOf name = .cold) :
    s.GivenUp name (events ++ [event]) := by
  obtain ⟨before, step, since, job, rfl, cancelled, named, uncalled, stays⟩ := given
  have here : s.after (before ++ step :: since) = ((s.after before).next step).after since :=
    s.after_append before (step :: since)
  refine ⟨before, step, since ++ [event], job, by simp, cancelled, named, ?_, ?_⟩
  · rw [here] at uncounted
    rwa [countedCalls_concat_of_uncounted uncounted]
  · intro earlier early
    rcases List.prefix_concat_iff.mp early with rfl | inside
    · rwa [after_concat, here, ← after_concat] at cold
    · exact stays earlier inside

/-- The step at which the job was given up. -/
theorem givenUp_of_cancelled {job : Job} (cancelled : (s.after events).cancelled? event = some job)
    (named : job.name = name)
    (cold : (s.after (events ++ [event])).optimizer.stateOf name = .cold) :
    s.GivenUp name (events ++ [event]) := by
  refine ⟨events, event, [], job, rfl, cancelled, named, rfl, ?_⟩
  intro earlier early
  obtain rfl := List.prefix_nil.mp early
  rwa [after_concat] at cold

/-- A name that has been called often enough and is cold lost its job as the last thing that
happened to it. -/
theorem givenUp_of_hot (sound : s.optimizer.Sound)
    (fresh : s.optimizer.callCount name < s.optimizer.settings.threshold)
    (hot : s.optimizer.settings.threshold ≤ (s.after events).optimizer.callCount name)
    (cold : (s.after events).optimizer.stateOf name = .cold) : s.GivenUp name events := by
  -- Along the history, the latest step last: what it means for the name decides.
  induction events using List.reverseRecOn with
  | nil => exact absurd hot (Nat.not_le.mpr fresh)
  | append_singleton events event ih =>
    have settings := s.after_settings events
    have turn := next_turn (after_sound sound events) name event
    rw [← after_concat] at turn
    cases turn with
    | spared uncounted calls state =>
      rw [calls] at hot
      exact (ih hot (state ▸ cold)).concat uncounted cold
    | counted counted calls state waits =>
      rw [cold] at state
      rcases waits with marked | ⟨_, few⟩
      · rw [marked] at state
        cases state
      · rw [settings] at few
        exact absurd hot (Nat.not_le.mpr few)
    | admitted called counted calls enough before state =>
      rw [cold] at state
      cases state
    | settled uncounted calls before state =>
      rw [cold] at state
      simp at state
    | cancelled uncounted calls before state given named =>
      exact givenUp_of_cancelled given named cold

/-- As long as no call is counted for it, a cold name stays cold. -/
theorem after_cold (sound : s.optimizer.Sound) (cold : s.optimizer.stateOf name = .cold)
    (uncalled : s.countedCalls name events = 0) :
    (s.after events).optimizer.stateOf name = .cold := by
  induction events generalizing s with
  | nil => exact cold
  | cons event events ih =>
    rw [countedCalls, Nat.add_eq_zero_iff, Bool.toNat_eq_zero] at uncalled
    refine ih (next_sound sound event) ?_ uncalled.2
    cases next_turn sound name event with
    | spared uncounted calls state => rw [state, cold]
    | counted counted => simp [uncalled.1] at counted
    | admitted called counted => simp [uncalled.1] at counted
    | settled uncounted calls before => simp [cold] at before
    | cancelled uncounted calls before state => exact state

/-- The next call that is counted for a name that is hot and cold takes on a job. -/
theorem next_admits_again (sound : s.optimizer.Sound) (cold : s.optimizer.stateOf name = .cold)
    (hot : s.optimizer.settings.threshold ≤ s.optimizer.callCount name)
    (counted : s.counts name event = true) :
    (s.next event).optimizer.stateOf name = .inFlight ∧
      (s.next event).optimizer.tally.admitted = s.optimizer.tally.admitted + 1 ∧
      ∃ index, event = .call index ∧
        (s.next event).optimizer.queue = s.optimizer.queue ++ [⟨name, index⟩] := by
  cases next_turn sound name event with
  | spared uncounted => simp [counted] at uncounted
  | counted _ calls state waits =>
    rcases waits with marked | ⟨_, few⟩
    · simp [cold] at marked
    · omega
  | @admitted index called _ calls enough before state queue tally =>
    exact ⟨state, tally, index, called, queue⟩
  | settled uncounted => simp [counted] at uncounted
  | cancelled uncounted => simp [counted] at uncounted

end Histories

/-- No call that makes a name hot is lost, whatever the order of the steps. The count of a name is
the number of the calls that were to be counted; a name with a job, a version or a failure has been
called often enough; and a name that has been called often enough is cold only if its job was given
up and nothing has happened to it since. The next call that is counted then takes on a job; after
shutdown no call is counted. -/
theorem crossings_kept (program : Program) (settings : Settings) (positive : 0 < settings.threshold)
    (events : List Event) (name : String) :
    let start := create program settings
    let s := start.after events
    s.optimizer.callCount name = start.countedCalls name events ∧
    (s.optimizer.stateOf name ≠ .cold → settings.threshold ≤ s.optimizer.callCount name) ∧
    (settings.threshold ≤ s.optimizer.callCount name → s.optimizer.stateOf name = .cold →
      start.GivenUp name events ∧
      ∀ more event, s.countedCalls name more = 0 → (s.after more).counts name event = true →
        let later := s.after more
        later.optimizer.hasShutDown = false ∧
        (later.next event).optimizer.stateOf name = .inFlight ∧
        (later.next event).optimizer.tally.admitted = later.optimizer.tally.admitted + 1 ∧
        ∃ index, event = .call index ∧
          (later.next event).optimizer.queue = later.optimizer.queue ++ [⟨name, index⟩]) := by
  intro start s
  have begun : start.optimizer.Sound := .create program settings
  have sound : s.optimizer.Sound := after_sound begun events
  have chosen : s.optimizer.settings = settings := start.after_settings events
  refine ⟨?_, ?_, ?_⟩
  · have counts := after_callCount begun name events
    rwa [show start.optimizer.callCount name = 0 from rfl, Nat.zero_add] at counts
  · intro left
    exact after_hot begun (fun warm => absurd rfl warm) left
  · intro hot cold
    refine ⟨givenUp_of_hot begun positive hot cold, ?_⟩
    intro more event uncalled counted later
    have laterSound : later.optimizer.Sound := after_sound sound more
    have calls : later.optimizer.callCount name = s.optimizer.callCount name := by
      rw [after_callCount sound name more, uncalled, Nat.add_zero]
    have enough : later.optimizer.settings.threshold ≤ later.optimizer.callCount name := by
      rw [calls, s.after_settings more, chosen]
      exact hot
    refine ⟨?_, next_admits_again laterSound (after_cold sound cold uncalled) enough counted⟩
    obtain ⟨_, _, _, _, _, enabled, _⟩ := (counts_eq_true_iff laterSound).mp counted
    exact laterSound.consistent.running enabled

/-- The second call makes the function hot, but the host holds the only permit and the job is given
up. The third call takes a job on again. -/
theorem crossings_kept_countdownProgram :
    let s := (create Machine.countdownProgram { threshold := 2 }).after
      [.call 0, .hold, .call 0, .expire 0]
    0 < 2 ∧ s.optimizer.callCount "main" = 2 ∧
      (create Machine.countdownProgram { threshold := 2 }).GivenUp "main"
        [.call 0, .hold, .call 0, .expire 0] ∧
      (s.next (.call 0)).optimizer.stateOf "main" = .inFlight := by
  intro s
  obtain ⟨calls, _, again⟩ := crossings_kept Machine.countdownProgram { threshold := 2 } (by decide)
    [.call 0, .hold, .call 0, .expire 0] "main"
  have hot : s.optimizer.callCount "main" = 2 := calls.trans (by decide +kernel)
  obtain ⟨given, admits⟩ := again (Nat.le_of_eq hot.symm) (by decide +kernel)
  exact ⟨by decide, hot, given, (admits [] (.call 0) rfl (by decide +kernel)).2.1⟩

end Supervised

end HotPath
