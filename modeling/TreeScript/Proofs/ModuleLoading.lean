import TreeScript.Proofs.LoadingCourses
import TreeScript.Proofs.Session

/-!
# Loading modules

Every evaluation in a sound state leaves the files that are being loaded as they were, whether it
ends early or not. It forgets no file that is kept, and it keeps a new one only if it has evaluated
its program exactly once and to the end. In between no file is being loaded twice, and importing a
file that is kept or being loaded evaluates nothing.
-/

namespace TreeScript

open Rule

/-! ### Importing what is known -/

section

variable {settings : Settings} {walker : RuntimeId} {name : String} {state : State} {place : Place}

/-- A name leads to the file at a place. -/
structure State.LeadsTo (files : Files) (walker : RuntimeId) (name : String) (place : Place)
    (state : State) : Prop where
  isLocal : isLocalName name = true
  found : files.moduleAt? (state.directoryOf files walker) name = .ok (some place)

theorem State.LeadsTo.visit (leads : state.LeadsTo settings.files walker name place)
    (runtime : RuntimeId) (node : Node) :
    (Change.apply state (.visit runtime node)).LeadsTo settings.files walker name place := by
  refine ⟨leads.isLocal, ?_⟩
  rw [State.directoryOf, Change.apply, state.view_modifyRuntime Runtime.directory runtime]
  · exact leads.found
  · exact fun _ => rfl

theorem State.registryOf_visit (state : State) (walker runtime : RuntimeId) (node : Node) :
    (Change.apply state (.visit runtime node)).registryOf walker = state.registryOf walker := by
  rw [State.registryOf, Change.apply, state.view_modifyRuntime Runtime.registry runtime]
  · rfl
  · exact fun _ => rfl

/-- Nothing is evaluated and no frame is entered. The rule may change the state, and it may fail for
one cause if that is given. -/
def still (cause : Option Cause) : Contract where
  allows _ _ deed := match deed with
    | .change _ | .leave _ => True
    | .fail _ told _ => cause = some told
    | .visit .. | .enter _ | .halt _ => False
  encloses _ _ := True
  gives _ _ _ := True
  allows_leave _ _ _ := trivial

theorem still_kept (cause : Option Cause) : (still cause).Kept settings :=
  fun _ _ _ _ _ visited => visited.elim

/-- The module of a file that is loaded is its scope. -/
theorem still_importModule_of_loaded {frames : List Frame} {scope : ScopeId}
    (leads : state.LeadsTo settings.files walker name place)
    (loaded : (state.registryOf walker).loaded? place = some scope) (node : Node) :
    (importModule walker node name).Keeps (still none) settings frames state fun x _ =>
      x = .scope scope := by
  simp only [importModule, moduleOf, leads.isLocal, if_true, map_eq_pure_bind, localModule,
    moduleOfFile, keeps_bind, keeps_inspect, leads.found, loaded, keeps_pure, trace]
  split
  · exact ⟨trivial, trivial, trivial⟩
  · exact ⟨trivial, trivial⟩

/-- A file that is being loaded is no module yet. -/
theorem still_importModule_of_loading {frames : List Frame}
    (leads : state.LeadsTo settings.files walker name place)
    (absent : (state.registryOf walker).loaded? place = none)
    (loading : place ∈ (state.registryOf walker).loading) (node : Node) :
    (importModule walker node name).Keeps (still (some .moduleInProgress)) settings frames state
      fun _ _ => False := by
  have busy : (state.registryOf walker).isLoading place = true := by
    simpa [Registry.isLoading] using loading
  simp only [importModule, moduleOf, leads.isLocal, if_true, map_eq_pure_bind, localModule,
    moduleOfFile, keeps_bind, keeps_inspect, leads.found, absent, busy, keeps_fail]
  rfl

/-- At none of the moments anything is evaluated or a frame is entered. -/
def Still (moments : List Moment) : Prop :=
  ∀ m ∈ moments, (∀ runtime object context, m.deed ≠ .visit runtime object context) ∧
    ∀ frame, m.deed ≠ .enter frame

theorem Rule.Keeps.still {α : Type} {rule : Rule α} {cause : Option Cause} {frames : List Frame}
    {state : State} {post : α → State → Prop}
    (keeps : rule.Keeps (still cause) settings frames state post) (depth : Nat) :
    Still (rule.moments settings depth frames state) ∧
      ((∃ x after, rule.run (TreeScript.evaluate depth) settings state = (.ok x, after) ∧
          post x after) ∨
        ∃ error, (rule.run (TreeScript.evaluate depth) settings state).1 = .error (.error error) ∧
          cause = some error.cause) := by
  obtain ⟨result, allowed⟩ := keeps.sound (still_kept cause) depth
  constructor
  · intro m mem
    have may := allowed m mem
    constructor
    · intro runtime object context deed
      rw [deed] at may
      exact may
    · intro frame deed
      rw [deed] at may
      exact may
  · have ends := rule.moments_endsFor settings depth frames state
    cases outcome : rule.run (TreeScript.evaluate depth) settings state with
    | mk ended after => cases ended with
      | ok x => exact .inl ⟨x, after, rfl, result x after outcome⟩
      | error reason =>
          rw [outcome] at ends
          obtain ⟨before, last, later, eq, found, -, -⟩ := ends
          have may := allowed last (by rw [eq]; simp)
          unfold Moment.reason? at found
          split at found
          · rename_i runtime told node deed
            rw [deed] at may
            obtain rfl := Option.some.inj found
            exact .inr ⟨_, rfl, may⟩
          · rename_i deed
            rw [deed] at may
            exact may.elim
          · rename_i deed _
            rw [deed] at may
            exact may.elim
          · cases found

/-- What an import does before it looks for the module changes nothing that matters for it. -/
theorem still_evaluateStep {cause : Option Cause} (frames : List Frame) (context : Context)
    {origin : Origin} {post : Object → State → Prop}
    (keeps : (importModule walker (.moduleImport name origin) name).Keeps (still cause) settings
      frames (Change.apply state (.visit walker (.moduleImport name origin))) post) :
    (evaluateStep walker (.tree (.moduleImport name origin)) context).Keeps (still cause) settings
      frames state post :=
  ⟨trivial, keeps⟩

/-- An import evaluates nothing if the file it leads to is loaded or being loaded. In the one case
it gives the scope of the file, and in the other one it is an error of reference. -/
structure Moment.ImportsKnown (settings : Settings) (id : RegistryId) (visit : Moment) : Prop where
  loaded : ∀ walker name origin context place scope,
    visit.deed = .visit walker (.tree (.moduleImport name origin)) context → 0 < visit.depth →
    (visit.state.runtime walker).registry = id →
    visit.state.LeadsTo settings.files walker name place →
    (visit.state.registry id).loaded? place = some scope →
    Still (visit.inner settings) ∧
      (TreeScript.evaluate visit.depth walker (.tree (.moduleImport name origin)) context settings
        visit.state).1 = .ok (.scope scope)
  loading : ∀ walker name origin context place,
    visit.deed = .visit walker (.tree (.moduleImport name origin)) context → 0 < visit.depth →
    (visit.state.runtime walker).registry = id →
    visit.state.LeadsTo settings.files walker name place →
    place ∈ (visit.state.registry id).loading →
    Still (visit.inner settings) ∧ ∃ error,
      (TreeScript.evaluate visit.depth walker (.tree (.moduleImport name origin)) context settings
        visit.state).1 = .error (.error error) ∧
      error.cause = .moduleInProgress ∧ error.cause.kind = .reference

theorem Moment.importsKnown {id : RegistryId} {visit : Moment}
    (orderly : (visit.state.registry id).Orderly) : visit.ImportsKnown settings id := by
  obtain ⟨depth, frames, state, deed⟩ := visit
  constructor
  · rintro walker name origin context place scope rfl positive rfl leads loaded
    obtain ⟨depth, rfl⟩ := Nat.exists_eq_succ_of_ne_zero (Nat.ne_of_gt positive)
    have leads' := leads.visit walker (.moduleImport name origin)
    have loaded' : ((Change.apply state (.visit walker (.moduleImport name origin))).registryOf
        walker).loaded? place = some scope := by
      rw [State.registryOf_visit]
      exact loaded
    have keeps := still_evaluateStep frames context
      (still_importModule_of_loaded leads' loaded' (.moduleImport name origin))
    obtain ⟨nothing, ⟨x, after, ends, rfl⟩ | ⟨error, -, none⟩⟩ := keeps.still depth
    · exact ⟨nothing, congrArg Prod.fst ends⟩
    · cases none
  · rintro walker name origin context place rfl positive rfl leads loading
    obtain ⟨depth, rfl⟩ := Nat.exists_eq_succ_of_ne_zero (Nat.ne_of_gt positive)
    have leads' := leads.visit walker (.moduleImport name origin)
    have registry := state.registryOf_visit walker walker (.moduleImport name origin)
    have absent' : ((Change.apply state (.visit walker (.moduleImport name origin))).registryOf
        walker).loaded? place = none := by
      rw [registry]
      exact orderly.apart place loading
    have loading' : place ∈ ((Change.apply state (.visit walker
        (.moduleImport name origin))).registryOf walker).loading := by
      rw [registry]
      exact loading
    have keeps := still_evaluateStep frames context
      (still_importModule_of_loading leads' absent' loading' (.moduleImport name origin))
    obtain ⟨nothing, ⟨x, after, -, never⟩ | ⟨error, ends, cause⟩⟩ := keeps.still depth
    · exact never.elim
    · obtain told := Option.some.inj cause
      refine ⟨nothing, error, ends, told.symm, ?_⟩
      rw [← told]
      rfl

end

/-- What an evaluation in a sound state does to an orderly registry, whether it ends early or
not. -/
theorem evaluate_loads {hosted : Bool} (settings : Settings) (depth : Nat) {runtime : RuntimeId}
    {object : Object} {context : Context} {state : State} (id : RegistryId)
    (sound : state.Sound hosted) (inside : runtime < state.runtimes.size)
    (valid : context.Valid (state.extent hosted))
    (evaluable : object.Evaluable (state.extent hosted)) (orderly : (state.registry id).Orderly) :
    let visit : Moment := ⟨depth, [], state, .visit runtime object context⟩
    let after := (evaluate depth runtime object context settings state).2
    (after.registry id).loading = (state.registry id).loading ∧
    (∀ place scope, (state.registry id).loaded? place = some scope →
      (after.registry id).loaded? place = some scope) ∧
    (∀ place scope, (state.registry id).loaded? place = none →
      (after.registry id).loaded? place = some scope →
        LoadedOnce settings id place scope (visit.inner settings)) ∧
    (after.registry id).Orderly ∧
    ∀ m ∈ visit :: visit.inner settings,
      (m.state.registry id).Orderly ∧ m.ImportsKnown settings id := by
  intro visit after
  have ready : Ready hosted 0 [] state runtime context :=
    ⟨sound, Nat.zero_le _, inside, valid, by simp⟩
  have proper := ((discipline_kept hosted 0 settings).at_depth depth runtime object context [] state
    ⟨ready, evaluable⟩).2
  have founded : ∀ m ∈ visit.inner settings, m.Founded := by
    intro m mem importer place enters
    have entry := proper m mem
    rw [enters] at entry
    obtain ⟨sound', importer_lt⟩ := entry
    exact ⟨importer_lt, sound'.registry_lt importer importer_lt⟩
  have course : Course settings id state (visit.inner settings) _ after :=
    orderlyParts settings id depth runtime object context [] state orderly founded
  refine ⟨course.loading, fun place scope => Registry.loaded?_of_prefix course.loaded,
    course.once, course.orderly, ?_⟩
  have always : ∀ m ∈ visit :: visit.inner settings, (m.state.registry id).Orderly :=
    List.forall_mem_cons.mpr ⟨orderly, course.always⟩
  exact fun m mem => ⟨always m mem, Moment.importsKnown (always m mem)⟩

/-- The file `lib.yaml` is loaded once. -/
theorem evaluate_loads_lib :
    let files : Files := .ofLines [("lib.yaml", ["type: NumberLiteral", "value: 1"])]
    let place : Place := ⟨.origin, ["lib.yaml"]⟩
    let visit : Moment := ⟨4, [], State.fresh, .visit 0 (.tree (.moduleImport "./lib" {}))
      { scope := 0 }⟩
    let after := (evaluate 4 0 (.tree (.moduleImport "./lib" {})) { scope := 0 } (.quiet files)
      State.fresh).2
    ∃ scope, (after.registry 0).loading = [] ∧ (after.registry 0).loaded? place = some scope ∧
      LoadedOnce (.quiet files) 0 place scope (visit.inner (.quiet files)) := by
  intro files place visit after
  have sound := (Session.fresh false).sound
  have orderly : (State.fresh.registry 0).Orderly := by
    constructor
    · exact List.nodup_nil
    · exact fun place mem => absurd mem List.not_mem_nil
  obtain ⟨loading, -, once, -, -⟩ := evaluate_loads (.quiet files) 4 0 sound
    (by decide : 0 < State.fresh.runtimes.size)
    (⟨by decide, by simp⟩ : Context.Valid (State.fresh.extent false) { scope := 0 })
    (.inl rfl : (Object.tree (.moduleImport "./lib" {})).Evaluable (State.fresh.extent false))
    orderly
  have found : ((after.registry 0).loaded? place).isSome = true := by decide +kernel
  obtain ⟨scope, found⟩ := Option.isSome_iff_exists.mp found
  exact ⟨scope, loading, found, once place scope rfl found⟩

end TreeScript
