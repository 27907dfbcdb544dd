import HotPath.Proofs.Machine.Transparency
import HotPath.Proofs.Tier.Offers
import Mathlib.Data.List.Nodup

/-!
# What is published is right

A job names a function by its name and by its index. `Faithful` says that the two belong
together for every job and every publication, that a publication has spans fused, and
that a name fails only over a function of that name. The steps of an optimizer and its
surroundings preserve it (`next_faithful`, `after_faithful`).

With the names of publications distinct, it follows that looking a version up by
index and looking it up by name come to the same (`published_versions`).
-/

namespace HotPath

/-- Fusing a function fails or leaves it as it is. -/
def Function.YieldsNothing (p : Program) (f : Function) : Prop :=
  (∃ e, f.fuse p = .error e) ∨ ∃ version, f.fuse p = .ok version ∧ version.count = 0

/-- The number of spans that fusing replaces in the function at an index. -/
def Program.fusionsAt (p : Program) (index : Nat) : Nat :=
  match p.functions[index]? with
  | some f =>
    match f.fuse p with
    | .ok version => version.count
    | .error _ => 0
  | none => 0

/-- The name of a job is that of the function at its index. -/
def Job.NamesFunction (p : Program) (job : Job) : Prop :=
  ∃ f, p.functions[job.index]? = some f ∧ f.name = job.name

namespace Optimizer

/-- Everything that an optimizer has published or given up goes back to a function of its
program, under the name of that function. -/
structure Faithful (p : Program) (o : Optimizer) : Prop extends Genuine p o where
  queued : ∀ job ∈ o.queue, job.NamesFunction p
  sited : ∀ q ∈ o.published, q.job.NamesFunction p ∧ 0 < q.version.count
  failures : ∀ name ∈ o.failed, ∃ (index : Nat) (f : Function),
    p.functions[index]? = some f ∧ f.name = name ∧ f.YieldsNothing p
  fusions : o.tally.fusions = (o.published.map fun q => q.version.count).sum

/-- What comes of a job whose name is that of the function at its index. -/
theorem attempt_of_found {o : Optimizer} {job : Job} {f : Function}
    (found : o.program.functions[job.index]? = some f) :
    (f.YieldsNothing o.program ∧ o.attempt job = o.fail job) ∨
      ∃ version, f.fuse o.program = .ok version ∧ 0 < version.count ∧
        o.attempt job = o.publish job version := by
  unfold attempt
  rw [found]
  dsimp only
  cases fused : f.fuse o.program with
  | error e => exact .inl ⟨.inl ⟨e, fused⟩, rfl⟩
  | ok version =>
    cases spans : version.changed with
    | false =>
      have none_fused : version.count = 0 := by simpa [Fusion.changed] using spans
      refine .inl ⟨.inr ⟨version, fused, none_fused⟩, ?_⟩
      simp only [spans, Bool.false_eq_true, if_false]
    | true =>
      have some_fused : 0 < version.count := by simpa [Fusion.changed] using spans
      refine .inr ⟨version, rfl, some_fused, ?_⟩
      simp only [spans, if_true]

namespace Faithful

variable {p : Program} {o later : Optimizer} {job : Job}

/-- A new optimizer has published nothing and given up nothing. -/
theorem create (p : Program) (settings : Settings) :
    (Optimizer.create p settings).Faithful p where
  toGenuine := .create p settings
  queued := by simp [Optimizer.create]
  sited := by simp [Optimizer.create]
  failures := by simp [Optimizer.create]
  fusions := rfl

/-- A step that neither publishes nor gives up nor takes on anything. -/
theorem of_same (faithful : o.Faithful p) (program : later.program = o.program)
    (published : later.published = o.published) (failed : later.failed = o.failed)
    (fusions : later.tally.fusions = o.tally.fusions) (queue : ∀ job ∈ later.queue, job ∈ o.queue) :
    later.Faithful p where
  program := program.trans faithful.program
  fused := by
    rw [published]
    exact faithful.fused
  queued := by
    intro job member
    exact faithful.queued job (queue job member)
  sited := by
    rw [published]
    exact faithful.sited
  failures := by
    rw [failed]
    exact faithful.failures
  fusions := by
    rw [fusions, published]
    exact faithful.fusions

/-- A job that is given up leaves nothing behind that could be wrong. -/
theorem cancel (faithful : o.Faithful p) (job : Job) : (o.cancel job).Faithful p :=
  faithful.of_same rfl rfl rfl rfl fun _ member => member

/-- A failure is faithful if fusing the function of that name yields nothing. -/
theorem fail (faithful : o.Faithful p) {f : Function}
    (found : p.functions[job.index]? = some f) (named : f.name = job.name)
    (barren : f.YieldsNothing p) : (o.fail job).Faithful p where
  toGenuine := ⟨faithful.program, faithful.fused⟩
  queued := faithful.queued
  sited := faithful.sited
  failures := by
    intro name member
    simp only [Optimizer.fail, unmark] at member
    split at member
    next => exact faithful.failures name member
    next =>
      rcases List.mem_cons.mp member with rfl | earlier
      · exact ⟨job.index, f, found, named, barren⟩
      · exact faithful.failures name earlier
  fusions := faithful.fusions

/-- A version is faithful if it is the function at the job's index, fused. -/
theorem publish (faithful : o.Faithful p) {f : Function} {version : Fusion}
    (found : p.functions[job.index]? = some f) (named : f.name = job.name)
    (fused : f.fuse p = .ok version) (spans : 0 < version.count) :
    (o.publish job version).Faithful p := by
  unfold Optimizer.publish
  split
  next => exact faithful.of_same rfl rfl rfl rfl fun _ member => member
  next =>
    constructor
    case toGenuine =>
      refine ⟨faithful.program, ?_⟩
      intro q member
      rcases List.mem_append.mp member with earlier | latest
      · exact faithful.fused q earlier
      · obtain rfl := List.mem_singleton.mp latest
        exact ⟨f, found, fused⟩
    case queued => exact faithful.queued
    case sited =>
      intro q member
      rcases List.mem_append.mp member with earlier | latest
      · exact faithful.sited q earlier
      · obtain rfl := List.mem_singleton.mp latest
        exact ⟨⟨f, found, named⟩, spans⟩
    case failures => exact faithful.failures
    case fusions =>
      simp only [unmark, List.map_append, List.sum_append, List.map_singleton, List.sum_singleton]
      rw [faithful.fusions]

/-- Whatever comes of a job for a function of the program, it is filed under that function. -/
theorem attempt (faithful : o.Faithful p) (names : job.NamesFunction p) :
    (o.attempt job).Faithful p := by
  obtain ⟨f, found, named⟩ := names
  have here := found
  rw [← faithful.program] at here
  rcases attempt_of_found here with ⟨barren, failed⟩ | ⟨version, fused, spans, published⟩
  · rw [faithful.program] at barren
    rw [failed]
    exact faithful.fail found named barren
  · rw [faithful.program] at fused
    rw [published]
    exact faithful.publish found named fused spans

/-- What a worker does with a job is right if the job names its function. -/
theorem work (faithful : o.Faithful p) (names : job.NamesFunction p) :
    (o.work job).Faithful p := by
  rcases o.work_cases job with cancelled | ⟨inside, outside, attempted⟩
  · rw [cancelled]
    exact faithful.cancel job
  · have gated : ({ o with gate := inside } : Optimizer).Faithful p :=
      faithful.of_same rfl rfl rfl rfl fun _ member => member
    rw [attempted]
    exact (gated.attempt names).of_same rfl rfl rfl rfl fun _ member => member

/-- Taking a job off the queue. -/
theorem takeOff (faithful : o.Faithful p) {rest : List Job} (perm : o.queue.Perm (job :: rest)) :
    ({ o with queue := rest } : Optimizer).Faithful p ∧ job.NamesFunction p := by
  refine ⟨faithful.of_same rfl rfl rfl rfl ?_, ?_⟩
  · intro other member
    exact perm.mem_iff.mpr (List.mem_cons_of_mem _ member)
  · exact faithful.queued job (perm.mem_iff.mpr List.mem_cons_self)

/-- A worker may take any job of the queue, as all of them name their functions. -/
theorem process (faithful : o.Faithful p) (position : Nat) : (o.process position).Faithful p := by
  rcases o.process_cases position with same | ⟨job, rest, perm, worked⟩
  · rwa [same]
  · obtain ⟨taken, names⟩ := faithful.takeOff perm
    rw [worked]
    exact (taken.work names).of_same rfl rfl rfl rfl fun _ member => member

/-- A job whose wait is over leaves nothing behind that could be wrong. -/
theorem expire (faithful : o.Faithful p) (position : Nat) : (o.expire position).Faithful p := by
  rcases o.expire_cases position with same | ⟨job, rest, perm, expired⟩
  · rwa [same]
  · rw [expired]
    exact ((faithful.takeOff perm).1.cancel job).of_same rfl rfl rfl rfl fun _ member => member

/-- A call is reported under the index and the name of its function, and so is the job. -/
theorem recordCall (faithful : o.Faithful p) {index : Nat} {f : Function}
    (found : p.functions[index]? = some f) : (o.recordCall index f.name).Faithful p := by
  rcases o.recordCall_cases index f.name with same | counted | ⟨_, _, _, admitted⟩
  · rwa [same]
  · rw [counted]
    exact faithful.of_same rfl rfl rfl rfl fun _ member => member
  · rw [admitted]
    unfold submit
    dsimp only
    split
    next => exact faithful.of_same rfl rfl rfl rfl fun _ member => member
    next =>
      refine ⟨⟨faithful.program, faithful.fused⟩, ?_, faithful.sited, faithful.failures,
        faithful.fusions⟩
      intro job member
      rcases List.mem_append.mp member with earlier | latest
      · exact faithful.queued job earlier
      · obtain rfl := List.mem_singleton.mp latest
        exact ⟨f, found, rfl⟩

/-- Switching on is about no job. -/
theorem enable (faithful : o.Faithful p) : o.enable.Faithful p := by
  unfold Optimizer.enable
  split
  next => exact faithful
  next => exact faithful.of_same rfl rfl rfl rfl fun _ member => member

/-- Switching off is about no job. -/
theorem disable (faithful : o.Faithful p) : o.disable.Faithful p :=
  faithful.of_same rfl rfl rfl rfl fun _ member => member

/-- A shutdown is about no job. -/
theorem shutdown (faithful : o.Faithful p) : o.shutdown.Faithful p := by
  unfold Optimizer.shutdown
  split
  next => exact faithful
  next => exact faithful.of_same rfl rfl rfl rfl fun _ member => member

end Faithful

section Lookup

variable {p : Program} {o : Optimizer}

/-- Looking a publication up by a key that all publications differ in. -/
theorem find?_publication_iff {κ : Type} [DecidableEq κ] {key : Publication → κ}
    {published : List Publication} (distinct : (published.map key).Nodup) {k : κ}
    {q : Publication} :
    published.find? (fun other => key other = k) = some q ↔ q ∈ published ∧ key q = k := by
  constructor
  · intro first
    exact ⟨List.mem_of_find?_eq_some first, by simpa using List.find?_some first⟩
  · rintro ⟨member, rfl⟩
    have exists_first : (published.find? fun other => key other = key q).isSome = true :=
      List.find?_isSome.mpr ⟨q, member, by simp⟩
    obtain ⟨first, found⟩ := Option.isSome_iff_exists.mp exists_first
    have same : key first = key q := by simpa using List.find?_some found
    rw [found, List.inj_on_of_nodup_map distinct (List.mem_of_find?_eq_some found) member same]

/-- No two publications are of one function, since no two have one name. -/
theorem Faithful.nodup_index (faithful : o.Faithful p)
    (distinct : (o.published.map fun q => q.job.name).Nodup) :
    (o.published.map fun q => q.job.index).Nodup := by
  refine distinct.of_map.map_on ?_
  intro first member second otherMember same
  obtain ⟨f, found, named⟩ := (faithful.sited first member).1
  obtain ⟨g, otherFound, otherNamed⟩ := (faithful.sited second otherMember).1
  rw [same, otherFound] at found
  cases found
  exact List.inj_on_of_nodup_map distinct member otherMember (named.symm.trans otherNamed)

/-- Where names are distinct, a version is found by its name exactly if it has been published. -/
theorem named?_eq_some_iff (distinct : (o.published.map fun q => q.job.name).Nodup)
    {name : String} {g : Function} :
    o.named? name = some g ↔ ∃ q ∈ o.published, q.job.name = name ∧ q.version.function = g := by
  simp only [named?, Option.map_eq_some_iff, find?_publication_iff distinct, and_assoc]

/-- Where indices are distinct, a version is found by its index exactly if it has been published. -/
theorem indexed?_eq_some_iff (distinct : (o.published.map fun q => q.job.index).Nodup)
    {index : Nat} {g : Function} :
    o.indexed? index = some g ↔
      ∃ q ∈ o.published, q.job.index = index ∧ q.version.function = g := by
  simp only [indexed?, Option.map_eq_some_iff, find?_publication_iff distinct, and_assoc]

/-- A version on offer for an index stays on offer. -/
theorem Extends.indexed? {later : Optimizer} (extension : o.Extends later) {index : Nat}
    {g : Function} (found : o.indexed? index = some g) : later.indexed? index = some g := by
  obtain ⟨more, whole⟩ := extension.published
  unfold Optimizer.indexed? at found ⊢
  rw [Option.map_eq_some_iff] at found
  obtain ⟨q, first, version⟩ := found
  rw [← whole, List.find?_append, first]
  exact congrArg some version

/-- The indices of the publications are those of the functions that a version is on offer for. -/
theorem Faithful.perm_indices (faithful : o.Faithful p)
    (distinct : (o.published.map fun q => q.job.name).Nodup) :
    (o.published.map fun q => q.job.index).Perm
      ((List.range p.functions.size).filter fun index => (o.indexed? index).isSome) := by
  have indices := faithful.nodup_index distinct
  rw [List.perm_ext_iff_of_nodup indices (List.nodup_range.filter _)]
  intro index
  simp only [List.mem_map, List.mem_filter, List.mem_range, Option.isSome_iff_exists,
    indexed?_eq_some_iff indices]
  constructor
  · rintro ⟨q, member, rfl⟩
    obtain ⟨f, found, _⟩ := (faithful.sited q member).1
    obtain ⟨inside, _⟩ := Array.getElem?_eq_some_iff.mp found
    exact ⟨inside, _, q, member, rfl, rfl⟩
  · rintro ⟨_, _, q, member, same, _⟩
    exact ⟨q, member, same⟩

end Lookup

/-- Whatever is on offer is right: by index and by name it is the same version, and that is what
fusing gives for the one function that it stands for. -/
structure OffersRightly (p : Program) (o : Optimizer) : Prop where
  indexed : ∀ index g, o.indexed? index = some g →
    ∃ f version, p.functions[index]? = some f ∧ f.fuse p = .ok version ∧ 0 < version.count ∧
      g = version.function ∧ o.named? f.name = some g
  /-- A published name comes from one function. -/
  named : ∀ name g, o.named? name = some g →
    ∃ index f, p.functions[index]? = some f ∧ f.name = name ∧ o.indexed? index = some g ∧
      ∀ other h, p.functions[other]? = some h → h.name = name → (o.indexed? other).isSome →
        other = index
  failed : ∀ name, o.stateOf name = .failed →
    ∃ (index : Nat) (f : Function), p.functions[index]? = some f ∧ f.name = name ∧
      f.YieldsNothing p
  fusions : o.tally.fusions = (((List.range p.functions.size).filter fun index =>
    (o.indexed? index).isSome).map p.fusionsAt).sum
  program : o.program = p

namespace Faithful

variable {p : Program} {o : Optimizer}

/-- A version that is found by its index is the function there, fused, and is found by its name
too. -/
theorem indexed (faithful : o.Faithful p)
    (distinct : (o.published.map fun q => q.job.name).Nodup) {index : Nat} {g : Function}
    (offered : o.indexed? index = some g) :
    ∃ f version, p.functions[index]? = some f ∧ f.fuse p = .ok version ∧ 0 < version.count ∧
      g = version.function ∧ o.named? f.name = some g := by
  obtain ⟨q, member, rfl, rfl⟩ :=
    (indexed?_eq_some_iff (faithful.nodup_index distinct)).mp offered
  obtain ⟨⟨f, found, named⟩, spans⟩ := faithful.sited q member
  obtain ⟨g, here, fused⟩ := faithful.fused q member
  rw [found] at here
  cases here
  exact ⟨f, q.version, found, fused, spans, rfl,
    (named?_eq_some_iff distinct).mpr ⟨q, member, named.symm, rfl⟩⟩

/-- A version that is found by its name is found by its index too, and by no other index of a
function of that name. -/
theorem named (faithful : o.Faithful p)
    (distinct : (o.published.map fun q => q.job.name).Nodup) {name : String} {g : Function}
    (offered : o.named? name = some g) :
    ∃ index f, p.functions[index]? = some f ∧ f.name = name ∧ o.indexed? index = some g ∧
      ∀ other h, p.functions[other]? = some h → h.name = name → (o.indexed? other).isSome →
        other = index := by
  have indices := faithful.nodup_index distinct
  obtain ⟨q, member, rfl, rfl⟩ := (named?_eq_some_iff distinct).mp offered
  obtain ⟨f, found, named⟩ := (faithful.sited q member).1
  refine ⟨q.job.index, f, found, named, (indexed?_eq_some_iff indices).mpr ⟨q, member, rfl, rfl⟩, ?_⟩
  intro other h otherFound otherNamed otherOffered
  obtain ⟨version, offeredThere⟩ := Option.isSome_iff_exists.mp otherOffered
  obtain ⟨r, otherMember, rfl, _⟩ := (indexed?_eq_some_iff indices).mp offeredThere
  obtain ⟨k, there, name⟩ := (faithful.sited r otherMember).1
  rw [otherFound] at there
  cases there
  have same : r = q :=
    List.inj_on_of_nodup_map distinct otherMember member (name.symm.trans otherNamed)
  rw [same]

/-- The fusions that have been counted are those of the functions that have versions. -/
theorem total (faithful : o.Faithful p)
    (distinct : (o.published.map fun q => q.job.name).Nodup) :
    o.tally.fusions = (((List.range p.functions.size).filter fun index =>
      (o.indexed? index).isSome).map p.fusionsAt).sum := by
  have counts : (o.published.map fun q => q.version.count) =
      (o.published.map fun q => q.job.index).map p.fusionsAt := by
    rw [List.map_map]
    refine List.map_congr_left fun q member => ?_
    obtain ⟨f, found, fused⟩ := faithful.fused q member
    simp only [Function.comp_apply, Program.fusionsAt, found, fused]
  rw [faithful.fusions, counts]
  exact ((faithful.perm_indices distinct).map p.fusionsAt).sum_nat

/-- An optimizer that is faithful and sound offers its versions rightly. -/
theorem offersRightly (faithful : o.Faithful p) (sound : o.Sound) : o.OffersRightly p := by
  have distinct := sound.consistent.publishedDistinct
  constructor
  case indexed =>
    intro index g offered
    exact faithful.indexed distinct offered
  case named =>
    intro name g offered
    exact faithful.named distinct offered
  case failed =>
    intro name state
    refine faithful.failures name (hasFailed_iff.mp ?_)
    unfold stateOf at state
    split at state
    next => cases state
    split at state
    next => cases state
    split at state
    next failed => exact failed
    next => cases state
  case fusions => exact faithful.total distinct
  case program => exact faithful.program

end Faithful

end Optimizer

namespace Supervised

variable {p : Program}

/-- Every step files what it publishes and what it gives up under the right function. -/
theorem next_faithful {s : Supervised} (faithful : s.optimizer.Faithful p) (event : Event) :
    (s.next event).optimizer.Faithful p := by
  cases event with
  | call index =>
    unfold next
    dsimp only
    split
    next f found =>
      rw [faithful.program] at found
      exact faithful.recordCall found
    next => exact faithful
  | work position => exact faithful.process position
  | expire position => exact faithful.expire position
  | hold => exact faithful.of_same rfl rfl rfl rfl fun _ member => member
  | handBack => exact faithful.of_same rfl rfl rfl rfl fun _ member => member
  | enable => exact faithful.enable
  | disable => exact faithful.disable
  | shutdown => exact faithful.shutdown

/-- No sequence of events makes an optimizer unfaithful. -/
theorem after_faithful {s : Supervised} (faithful : s.optimizer.Faithful p)
    (events : List Event) : (s.after events).optimizer.Faithful p := by
  induction events generalizing s with
  | nil => exact faithful
  | cons event events ih => exact ih (next_faithful faithful event)

/-- In every state that any sequence of steps leads to, what is on offer is right, and it stays on
offer whatever happens later. -/
theorem published_versions (program : Program) (settings : Settings) (events : List Event) :
    let s := (create program settings).after events
    s.optimizer.OffersRightly program ∧
    ∀ more,
      (∀ name g, s.optimizer.named? name = some g →
        (s.after more).optimizer.named? name = some g) ∧
      ∀ index g, s.optimizer.indexed? index = some g →
        (s.after more).optimizer.indexed? index = some g := by
  intro s
  have sound : s.optimizer.Sound := after_sound (.create program settings) events
  have faithful : s.optimizer.Faithful program :=
    after_faithful (.create program settings) events
  refine ⟨faithful.offersRightly sound, ?_⟩
  intro more
  have extension := s.after_extends more
  constructor
  · intro name g offered
    exact extension.named? offered
  · intro index g offered
    exact extension.indexed? offered

/-- The first call makes the function of the program hot, and a worker publishes its version. -/
theorem published_versions_countdownProgram :
    let s := (create Machine.countdownProgram { threshold := 1 }).after [.call 0, .work 0]
    ∃ f version, Machine.countdownProgram.functions[0]? = some f ∧
      f.fuse Machine.countdownProgram = .ok version ∧ 0 < version.count ∧
      s.optimizer.indexed? 0 = some version.function ∧
      ∀ more, (s.after more).optimizer.named? f.name = some version.function := by
  intro s
  have offered : (s.optimizer.indexed? 0).isSome = true := by decide +kernel
  obtain ⟨g, offered⟩ := Option.isSome_iff_exists.mp offered
  obtain ⟨right, stays⟩ :=
    published_versions Machine.countdownProgram { threshold := 1 } [.call 0, .work 0]
  obtain ⟨f, version, found, fused, spans, rfl, named⟩ := right.indexed 0 g offered
  exact ⟨f, version, found, fused, spans, offered, fun more => (stays more).1 _ _ named⟩

end Supervised

end HotPath
