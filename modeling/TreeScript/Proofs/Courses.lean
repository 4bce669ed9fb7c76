import TreeScript.Proofs.Growth
import TreeScript.Proofs.Routine

/-!
# Courses

A course of an evaluation, from one state to another, leaves the places that are being loaded as
they were, forgets no file, and keeps a new one only if it has evaluated that file once and to the
end. Courses follow one another. What a rule does is a course if what its parts do is one, as long
as it neither loads nor keeps a file itself.
-/

namespace TreeScript

open Rule

/-- No place is being loaded twice, and none is being loaded that is kept. -/
structure Registry.Orderly (registry : Registry) : Prop where
  distinct : registry.loading.Nodup
  apart : ∀ place ∈ registry.loading, registry.loaded? place = none

theorem Registry.loaded?_append (registry : Registry) (more : List (Place × ScopeId))
    (place : Place) :
    ({ registry with loaded := registry.loaded ++ more } : Registry).loaded? place =
      (registry.loaded? place).or (({ loaded := more } : Registry).loaded? place) := by
  simp only [loaded?, List.find?_append, Option.map_or]

/-- A file that is loaded stays loaded as the same scope. -/
theorem Registry.loaded?_of_prefix {before after : Registry}
    (grows : before.loaded <+: after.loaded) {place : Place} {scope : ScopeId}
    (found : before.loaded? place = some scope) : after.loaded? place = some scope := by
  obtain ⟨more, eq⟩ := grows
  have found' : ({ before with loaded := before.loaded ++ more } : Registry).loaded? place =
      some scope := by
    rw [loaded?_append, found, Option.some_or]
  unfold loaded? at found' ⊢
  rw [← eq]
  exact found'

/-! ### What has nothing to do with loading -/

/-- A registry keeps no other files and is not loading others. -/
structure State.Settled (id : RegistryId) (before after : State) : Prop where
  loaded : (after.registry id).loaded = (before.registry id).loaded
  loading : (after.registry id).loading = (before.registry id).loading

namespace State

variable {id : RegistryId} {a b : State}

protected theorem Settled.refl (id : RegistryId) (state : State) : state.Settled id state :=
  ⟨rfl, rfl⟩

theorem Settled.loaded? (settled : State.Settled id a b) (place : Place) :
    (b.registry id).loaded? place = (a.registry id).loaded? place := by
  simp only [Registry.loaded?, settled.loaded]

theorem Settled.orderly (settled : State.Settled id a b) (orderly : (a.registry id).Orderly) :
    (b.registry id).Orderly where
  distinct := by
    rw [settled.loading]
    exact orderly.distinct
  apart place mem := by
    rw [settled.loading] at mem
    rw [settled.loaded? place]
    exact orderly.apart place mem

/-- A registry is settled if what changes is another one, or neither of the two lists. -/
theorem settled_setRegistry (state : State) (other : RegistryId) {registry : Registry}
    (h : id = other → registry.loaded = (state.registry other).loaded ∧
      registry.loading = (state.registry other).loading) :
    State.Settled id state (state.setRegistry other registry) := by
  rcases registry_setRegistry_cases state other id registry with eq | ⟨same, eq⟩
  · constructor
    · rw [eq]
    · rw [eq]
  · obtain ⟨loaded, loading⟩ := h same
    subst same
    constructor
    · rw [eq, loaded]
    · rw [eq, loading]

end State

theorem Registry.loading_register {registry changed : Registry} {name : String} {source : Source}
    (h : registry.register name source = .ok changed) : changed.loading = registry.loading := by
  cases source with
  | invalid => cases h
  | scope id | factory factory =>
      simp only [register, Except.ok.injEq] at h
      subst h
      split <;> rfl

/-- Only a file that is kept changes what is loaded. -/
theorem Change.settled (id : RegistryId) (state : State) {c : Change}
    (other : ∀ runtime place scope, c = .keep runtime place scope →
      (state.runtime runtime).registry ≠ id) :
    State.Settled id state (c.apply state) := by
  cases c with
  | keep runtime place scope =>
      have ne := other runtime place scope rfl
      exact state.settled_setRegistry _ fun same => absurd same.symm ne
  | print runtime text =>
      simp only [apply, State.print]
      split
      · exact ⟨rfl, rfl⟩
      · exact ⟨rfl, rfl⟩
  | register registry name source =>
      simp only [apply]
      split
      · rename_i changed registered
        exact state.settled_setRegistry registry fun _ =>
          ⟨Registry.loaded_register registered, Registry.loading_register registered⟩
      · exact .refl id state
  | settle registry name scope => exact state.settled_setRegistry registry fun _ => ⟨rfl, rfl⟩
  | _ => exact ⟨rfl, rfl⟩

/-- Entering and leaving a frame changes no registry but that of a file loaded within it. -/
theorem Frame.settled (id : RegistryId) (state : State) (frame : Frame)
    (other : ∀ importer place, frame = .loading importer place →
      (state.runtime importer).registry ≠ id) :
    State.Settled id state (frame.enter state) ∧ State.Settled id state (frame.leave state) := by
  cases frame with
  | call runtime node => exact ⟨⟨rfl, rfl⟩, ⟨rfl, rfl⟩⟩
  | builtin invocation => exact ⟨.refl id state, .refl id state⟩
  | loading importer place =>
      have ne := other importer place rfl
      constructor
      · exact state.settled_setRegistry _ fun same => absurd same.symm ne
      · exact state.settled_setRegistry _ fun same => absurd same.symm ne

theorem State.settled_reportError (id : RegistryId) (state : State) (runtime : RuntimeId)
    (cause : Cause) : State.Settled id state (state.reportError runtime cause) := by
  unfold reportError
  split
  · exact ⟨rfl, rfl⟩
  · exact .refl id state

/-! ### Courses -/

/-- A file begins to be loaded through the registry. -/
def Moment.Begins (id : RegistryId) (place : Place) (moment : Moment) : Prop :=
  ∃ importer, moment.deed = .enter (.loading importer place) ∧
    (moment.state.runtime importer).registry = id

theorem Moment.Begins.place_eq {id : RegistryId} {importer : RuntimeId} {place other : Place}
    {moment : Moment} (begins : moment.Begins id other)
    (enters : moment.deed = .enter (.loading importer place)) : other = place := by
  obtain ⟨importer', deed, -⟩ := begins
  rw [enters] at deed
  cases deed
  rfl

theorem Moment.not_begins {id : RegistryId} {moment : Moment}
    (other : ∀ importer place, moment.deed ≠ .enter (.loading importer place)) (place : Place) :
    ¬ moment.Begins id place := by
  rintro ⟨importer, deed, -⟩
  exact other importer place deed

/-- A file begins to be loaded, and what is done inside is the evaluation of its program, with marks
of its own, in the root scope of a runtime, to its end. -/
structure Moment.Loads (settings : Settings) (id : RegistryId) (place : Place) (scope : ScopeId)
    (entry : Moment) (inside : List Moment) : Prop where
  begins : entry.Begins id place
  evaluates : ∃ importer module document earlier,
    entry.deed = .enter (.loading importer place) ∧
    settings.files.program place = .ok document ∧
    (entry.state.runtime module).root = scope ∧
    let frame : Frame := .loading importer place
    let body := evaluateFile module place (State.mark earlier document).1 scope
    inside = body.moments settings entry.depth (frame :: entry.frames) (frame.enter entry.state) ∧
      ∃ result after, body.run (TreeScript.evaluate entry.depth) settings
        (frame.enter entry.state) = (.ok result, after)

/-- Among the moments the file at a place is loaded exactly once, and to its end. -/
def LoadedOnce (settings : Settings) (id : RegistryId) (place : Place) (scope : ScopeId)
    (moments : List Moment) : Prop :=
  ∃ before entry inside after, moments = before ++ entry :: (inside ++ after) ∧
    entry.Loads settings id place scope inside ∧
    ∀ m ∈ before ++ (inside ++ after), ¬ m.Begins id place

namespace LoadedOnce

variable {settings : Settings} {id : RegistryId} {place : Place} {scope : ScopeId}
variable {xs ys : List Moment}

theorem append_right (once : LoadedOnce settings id place scope xs)
    (none : ∀ m ∈ ys, ¬ m.Begins id place) : LoadedOnce settings id place scope (xs ++ ys) := by
  obtain ⟨before, entry, inside, after, rfl, loads, others⟩ := once
  refine ⟨before, entry, inside, after ++ ys, by simp, loads, ?_⟩
  rw [← List.append_assoc inside, ← List.append_assoc before]
  exact List.forall_mem_append.mpr ⟨others, none⟩

theorem append_left (once : LoadedOnce settings id place scope ys)
    (none : ∀ m ∈ xs, ¬ m.Begins id place) : LoadedOnce settings id place scope (xs ++ ys) := by
  obtain ⟨before, entry, inside, after, rfl, loads, others⟩ := once
  refine ⟨xs ++ before, entry, inside, after, by simp, loads, ?_⟩
  rw [List.append_assoc]
  exact List.forall_mem_append.mpr ⟨none, others⟩

end LoadedOnce

/-- What an evaluation does to the files of a registry from one state to another, where it has
ended with a result or not. -/
structure Course (settings : Settings) (id : RegistryId) (before : State) (moments : List Moment)
    (ended : Bool) (after : State) : Prop where
  orderly : (after.registry id).Orderly
  loading : (after.registry id).loading = (before.registry id).loading
  loaded : (before.registry id).loaded <+: (after.registry id).loaded
  always : ∀ m ∈ moments, (m.state.registry id).Orderly
  fresh : ∀ m ∈ moments, ∀ place, m.Begins id place →
    (before.registry id).loaded? place = none ∧ place ∉ (before.registry id).loading
  kept : ended = true → ∀ m ∈ moments, ∀ place, m.Begins id place →
    (after.registry id).loaded? place ≠ none
  once : ∀ place scope, (before.registry id).loaded? place = none →
    (after.registry id).loaded? place = some scope → LoadedOnce settings id place scope moments
  apart : moments.Pairwise fun m m' => ∀ place, m.Begins id place → ¬ m'.Begins id place

namespace Course

variable {settings : Settings} {id : RegistryId} {a b c : State} {xs ys : List Moment}
variable {ended : Bool}

/-- A course ends where it begins if it has no moments. -/
protected theorem nil (orderly : (a.registry id).Orderly) : Course settings id a [] ended a where
  orderly := orderly
  loading := rfl
  loaded := List.prefix_rfl
  always := by simp
  fresh := by simp
  kept := by simp
  once place scope absent found := by
    rw [absent] at found
    cases found
  apart := .nil

/-- One course with a result and then another. -/
theorem append (first : Course settings id a xs true b) (second : Course settings id b ys ended c) :
    Course settings id a (xs ++ ys) ended c where
  orderly := second.orderly
  loading := second.loading.trans first.loading
  loaded := first.loaded.trans second.loaded
  always := List.forall_mem_append.mpr ⟨first.always, second.always⟩
  fresh m mem place begins := by
    rcases List.mem_append.mp mem with early | late
    · exact first.fresh m early place begins
    · obtain ⟨absent, idle⟩ := second.fresh m late place begins
      rw [first.loading] at idle
      refine ⟨?_, idle⟩
      cases found : (a.registry id).loaded? place with
      | none => rfl
      | some scope =>
          rw [Registry.loaded?_of_prefix first.loaded found] at absent
          cases absent
  kept ends m mem place begins := by
    rcases List.mem_append.mp mem with early | late
    · obtain ⟨scope, found⟩ := Option.ne_none_iff_exists'.mp (first.kept rfl m early place begins)
      rw [Registry.loaded?_of_prefix second.loaded found]
      simp
    · exact second.kept ends m late place begins
  once place scope absent found := by
    cases middle : (b.registry id).loaded? place with
    | none =>
        refine (second.once place scope middle found).append_left fun m mem begins => ?_
        exact first.kept rfl m mem place begins middle
    | some other =>
        have same := Registry.loaded?_of_prefix second.loaded middle
        rw [found] at same
        cases same
        refine (first.once place scope absent middle).append_right fun m mem begins => ?_
        have none := (second.fresh m mem place begins).1
        rw [middle] at none
        cases none
  apart := by
    refine List.pairwise_append.mpr ⟨first.apart, second.apart, ?_⟩
    intro m early m' late place begins again
    exact first.kept rfl m early place begins (second.fresh m' late place again).1

/-- A course and one more moment, at which no file begins to be loaded or is kept. -/
theorem snoc (first : Course settings id a xs ended b) (depth : Nat) (frames : List Frame)
    (deed : Deed) (settled : State.Settled id b c)
    (none : ∀ place, ¬ Moment.Begins id place ⟨depth, frames, b, deed⟩) :
    Course settings id a (xs ++ [⟨depth, frames, b, deed⟩]) ended c where
  orderly := settled.orderly first.orderly
  loading := settled.loading.trans first.loading
  loaded := by
    rw [settled.loaded]
    exact first.loaded
  always := List.forall_mem_append.mpr ⟨first.always, by simpa using first.orderly⟩
  fresh m mem place begins := by
    rcases List.mem_append.mp mem with early | late
    · exact first.fresh m early place begins
    · rw [List.mem_singleton.mp late] at begins
      exact absurd begins (none place)
  kept ends m mem place begins := by
    rw [settled.loaded? place]
    rcases List.mem_append.mp mem with early | late
    · exact first.kept ends m early place begins
    · rw [List.mem_singleton.mp late] at begins
      exact absurd begins (none place)
  once place scope absent found := by
    rw [settled.loaded? place] at found
    exact (first.once place scope absent found).append_right (by simpa using none place)
  apart := List.pairwise_append.mpr ⟨first.apart, List.pairwise_singleton .., by simp [none]⟩

/-- A single moment at which no file begins to be loaded or is kept. -/
theorem single {depth : Nat} {frames : List Frame} {deed : Deed}
    (orderly : (a.registry id).Orderly) (settled : State.Settled id a b)
    (none : ∀ place, ¬ Moment.Begins id place ⟨depth, frames, a, deed⟩) :
    Course settings id a [⟨depth, frames, a, deed⟩] ended b :=
  (Course.nil orderly).snoc depth frames deed settled none

end Course

/-! ### What rules do -/

/-- A file that begins to be loaded is imported by a runtime that exists, through a registry that
exists. -/
def Moment.Founded (moment : Moment) : Prop :=
  ∀ importer place, moment.deed = .enter (.loading importer place) →
    importer < moment.state.runtimes.size ∧
      (moment.state.runtime importer).registry < moment.state.registries.size

namespace Rule

variable {settings : Settings} {id : RegistryId} {depth : Nat} {α β : Type}

/-- If the registry is orderly, then what the rule does from a state on is a course. -/
def OrderlyAt (settings : Settings) (id : RegistryId) (depth : Nat) (frames : List Frame)
    (state : State) (rule : Rule α) : Prop :=
  (state.registry id).Orderly → (∀ m ∈ rule.moments settings depth frames state, m.Founded) →
    Course settings id state (rule.moments settings depth frames state)
      (rule.run (TreeScript.evaluate depth) settings state).1.isOk
      (rule.run (TreeScript.evaluate depth) settings state).2

/-- From any state on, what the rule does is a course. -/
def Orderly (settings : Settings) (id : RegistryId) (depth : Nat) (rule : Rule α) : Prop :=
  ∀ frames state, rule.OrderlyAt settings id depth frames state

/-- At a depth the evaluation of every part is a course. -/
def OrderlyParts (settings : Settings) (id : RegistryId) (depth : Nat) : Prop :=
  ∀ runtime object context frames state, (state.registry id).Orderly →
    (∀ m ∈ partMoments settings depth runtime object context frames state, m.Founded) →
    Course settings id state (partMoments settings depth runtime object context frames state)
      (TreeScript.evaluate depth runtime object context settings state).1.isOk
      (TreeScript.evaluate depth runtime object context settings state).2

theorem orderlyAt_inspect {frames : List Frame} {state : State} (view : Settings → State → β)
    (f : β → Rule α) :
    (inspect view >>= f).OrderlyAt settings id depth frames state ↔
      (f (view settings state)).OrderlyAt settings id depth frames state := Iff.rfl

theorem orderly_done (a : α) : (done a).Orderly settings id depth :=
  fun _ _ orderly _ => .nil orderly

theorem orderly_look {view : Settings → State → β} {next : β → Rule α}
    (h : ∀ settings' state, (next (view settings' state)).Orderly settings id depth) :
    (look view next).Orderly settings id depth :=
  fun frames state orderly founded => h settings state frames state orderly founded

theorem orderly_change {c : Change} {next : Rule α}
    (other : ∀ runtime place scope, c ≠ .keep runtime place scope)
    (h : next.Orderly settings id depth) : (change c next).Orderly settings id depth := by
  intro frames state orderly founded
  have settled : State.Settled id state (c.apply state) :=
    Change.settled id state fun runtime place scope same => absurd same (other runtime place scope)
  have first : Course settings id state [⟨depth, frames, state, .change c⟩] true (c.apply state) :=
    .single orderly settled (by simp [Moment.Begins])
  have rest := h frames (c.apply state) first.orderly (List.forall_mem_cons.mp founded).2
  exact first.append rest

theorem orderly_fail (runtime : RuntimeId) (cause : Cause) (node : Node) :
    (fail runtime cause node : Rule α).Orderly settings id depth := by
  intro frames state orderly founded
  exact .single orderly (state.settled_reportError id runtime cause) (by simp [Moment.Begins])

theorem orderly_halt (reason : Interrupt) : (halt reason : Rule α).Orderly settings id depth := by
  intro frames state orderly founded
  exact .single orderly (.refl id state) (by simp [Moment.Begins])

theorem orderly_part (parts : OrderlyParts settings id depth) (runtime : RuntimeId)
    (object : Object) (context : Context) {next : Object → Rule α}
    (h : ∀ x, (next x).Orderly settings id depth) :
    (part runtime object context next).Orderly settings id depth := by
  intro frames state orderly founded
  have first : Course settings id state [⟨depth, frames, state, .visit runtime object context⟩] true
      state :=
    .single orderly (.refl id state) (by simp [Moment.Begins])
  have inner := parts runtime object context frames state orderly
  simp only [moments, momentsWith, run] at founded ⊢
  obtain ⟨-, founded⟩ := List.forall_mem_cons.mp founded
  obtain ⟨inside, later⟩ := List.forall_mem_append.mp founded
  have course := inner inside
  generalize TreeScript.evaluate depth runtime object context settings state = outcome
    at course later ⊢
  obtain ⟨reason | x, after⟩ := outcome
  · rw [List.append_nil]
    exact first.append course
  · have rest := h x frames after course.orderly later
    exact first.append (course.append rest)

theorem orderly_within {frame : Frame} {body : Rule β} {next : β → Rule α}
    (other : ∀ importer place, frame ≠ .loading importer place)
    (inner : body.Orderly settings id depth) (h : ∀ b, (next b).Orderly settings id depth) :
    (within frame body next).Orderly settings id depth := by
  intro frames state orderly founded
  have settled (state : State) := Frame.settled id state frame fun importer place same =>
    absurd same (other importer place)
  have none : ∀ place, ¬ Moment.Begins id place ⟨depth, frames, state, .enter frame⟩ :=
    Moment.not_begins fun importer place same => other importer place (Deed.enter.inj same)
  have entered : Course settings id state [⟨depth, frames, state, .enter frame⟩] true
      (frame.enter state) :=
    .single orderly (settled state).1 none
  simp only [moments, momentsWith, run] at founded ⊢
  obtain ⟨-, founded⟩ := List.forall_mem_cons.mp founded
  obtain ⟨inside, later⟩ := List.forall_mem_append.mp founded
  have course := inner (frame :: frames) (frame.enter state) entered.orderly inside
  simp only [moments] at course
  generalize body.run (TreeScript.evaluate depth) settings (frame.enter state) = outcome
    at course later ⊢
  obtain ⟨reason | b, after⟩ := outcome
  · exact entered.append (course.snoc _ _ _ (settled after).2 (by simp [Moment.Begins]))
  · have left := course.snoc depth (frame :: frames) (.leave frame) (settled after).2
      (by simp [Moment.Begins])
    have rest := h b frames _ left.orderly (List.forall_mem_cons.mp later).2
    have whole := entered.append (left.append rest)
    rw [List.append_assoc] at whole
    exact whole

theorem orderly_bind {rule : Rule α} {f : α → Rule β} (first : rule.Orderly settings id depth)
    (second : ∀ a, (f a).Orderly settings id depth) : (rule >>= f).Orderly settings id depth := by
  intro frames state orderly founded
  simp only [moments, momentsWith_bind, run_bind] at founded ⊢
  obtain ⟨early, later⟩ := List.forall_mem_append.mp founded
  have course := first frames state orderly early
  simp only [moments] at course
  generalize rule.run (TreeScript.evaluate depth) settings state = outcome at course later ⊢
  obtain ⟨reason | a, after⟩ := outcome
  · rw [List.append_nil]
    exact course
  · exact course.append (second a frames after course.orderly later)

end Rule

end TreeScript
