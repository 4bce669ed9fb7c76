import TreeScript.Proofs.ErrorReports
import TreeScript.Proofs.FileStarts

/-!
# Imports that lead back

A runner that has run nothing yet runs a file. Every file but that one is started once at most, and
that one is started again exactly when an import leads to it: the run itself does not count as the
loading of a module. From then on it is known like every other file.
-/

namespace TreeScript

open Rule

/-- An import is evaluated that leads to the file at a place, and the file holds a program. -/
structure Moment.ImportsFile (files : Files) (place : Place) (visit : Moment) : Prop where
  positive : 0 < visit.depth
  reads : ∃ document, files.program place = .ok document
  leads : ∃ walker name origin context,
    visit.deed = .visit walker (.tree (.moduleImport name origin)) context ∧
    visit.state.LeadsTo files walker name place

/-! ### What is loaded was imported -/

/-- Each file that begins to be loaded is a known one, or an import led to it. -/
def Explained (files : Files) (known : Place → Prop) (moments : List Moment) : Prop :=
  ∀ m ∈ moments, ∀ place, m.entered? = some place →
    known place ∨ ∃ visit ∈ moments, visit.ImportsFile files place

variable {files : Files} {known : Place → Prop} {xs : List Moment}

theorem Explained.cons {m : Moment}
    (first : ∀ place, m.entered? = some place → known place ∨ m.ImportsFile files place)
    (rest : Explained files (fun place => known place ∨ m.ImportsFile files place) xs) :
    Explained files known (m :: xs) := by
  have direct {place : Place} (h : known place ∨ m.ImportsFile files place) :
      known place ∨ ∃ visit ∈ m :: xs, visit.ImportsFile files place :=
    h.imp_right fun imports => ⟨m, List.mem_cons_self .., imports⟩
  intro other mem place enters
  rcases List.mem_cons.mp mem with rfl | later
  · exact direct (first place enters)
  · rcases rest other later place enters with h | ⟨visit, mem, imports⟩
    · exact direct h
    · exact .inr ⟨visit, List.mem_cons_of_mem _ mem, imports⟩

theorem Explained.mono {known' : Place → Prop} (explained : Explained files known xs)
    (imp : ∀ place, known place → known' place) : Explained files known' xs :=
  fun m mem place enters => (explained m mem place enters).imp_left (imp place)

theorem additive_explained (files : Files) (known : Place → Prop) :
    Additive (Explained files known) where
  nil := by simp [Explained]
  append first second m mem place enters := by
    rcases List.mem_append.mp mem with early | late
    · refine (first m early place enters).imp_right ?_
      rintro ⟨visit, mem, imports⟩
      exact ⟨visit, List.mem_append_left _ mem, imports⟩
    · refine (second m late place enters).imp_right ?_
      rintro ⟨visit, mem, imports⟩
      exact ⟨visit, List.mem_append_right _ mem, imports⟩
  idle m idle := by simp [Explained, idle.silent]

section

variable {settings : Settings} {depth : Nat} {frames : List Frame} {state : State}

theorem State.leadsTo_visit_iff {walker : RuntimeId} {name : String} {place : Place}
    (runtime : RuntimeId) (node : Node) :
    (Change.apply state (.visit runtime node)).LeadsTo files walker name place ↔
      state.LeadsTo files walker name place := by
  have directory : (Change.apply state (.visit runtime node)).directoryOf files walker =
      state.directoryOf files walker := by
    rw [State.directoryOf, Change.apply, state.view_modifyRuntime Runtime.directory runtime]
    · rfl
    · exact fun _ => rfl
  constructor
  · exact fun leads => ⟨leads.isLocal, directory ▸ leads.found⟩
  · exact fun leads => ⟨leads.isLocal, directory.symm ▸ leads.found⟩

theorem explained_load {importer module : RuntimeId} {place : Place} {program : Node}
    {root : ScopeId} (parts : Additive.Parts (Explained files known) settings depth)
    (holds : known place) :
    Explained files known
      ((load importer module place program root).moments settings depth frames state) := by
  have additive := additive_explained files known
  refine additive.within ?_ (additive.evaluateFile parts _ _ _ _ ?_) fun _ _ =>
    additive.cons trivial additive.nil
  · intro m mem other enters
    cases List.mem_singleton.mp mem
    cases enters
    exact .inl holds
  · simp [Explained, Moment.entered?]

/-- An import loads the file that its name leads to, and only if that holds a program. -/
theorem explained_importModule {runtime : RuntimeId} {name : String} {origin : Origin}
    (parts : Additive.Parts (Explained settings.files known) settings depth)
    (holds : ∀ place document, settings.files.program place = .ok document →
      state.LeadsTo settings.files runtime name place → known place) :
    Explained settings.files known ((importModule runtime (.moduleImport name origin) name).moments
      settings depth frames state) := by
  have additive := additive_explained settings.files known
  have plain {α : Type} {rule : Rule α} (routine : Routine False runtime rule) (after : State) :
      Explained settings.files known (rule.moments settings depth frames after) :=
    additive.routine routine parts False.elim frames after
  refine additive.bind ?_ fun found after => ?_
  · unfold moduleOf
    split
    · rename_i isLocal
      rw [map_eq_pure_bind]
      refine additive.bind ?_ fun _ _ => additive.nil
      simp only [localModule, moments_inspect]
      split
      · exact additive.idle _ trivial
      · exact additive.idle _ trivial
      · rename_i place leads
        exact additive.moduleOfFile runtime place fun document _ _ _ reads =>
          explained_load parts (holds place document reads ⟨isLocal, leads⟩)
    · refine plain ?_ state
      exact (routine_inspect _).bind fun registry => routine_registeredModule _ _
  · refine plain ?_ after
    split
    · exact .fail ⟨origin, rfl⟩
    · refine (routine_trace _).bind fun _ => ?_
      refine (routine_inspect _).bind fun root => ?_
      exact (routine_perform (by trivial)).bind fun _ => .done _

/-- At every depth, each file that an evaluation begins to load was imported in it. -/
theorem explained_parts (settings : Settings) (depth : Nat) (known : Place → Prop) :
    Additive.Parts (Explained settings.files known) settings depth := by
  induction depth generalizing known with
  | zero =>
      intro runtime object context frames state
      exact .cons (by simp [Moment.entered?]) (additive_explained _ _).nil
  | succ depth ih =>
      intro runtime object context frames state
      refine .cons (by simp [Moment.entered?]) ?_
      rw [partMoments_succ]
      by_cases imports : ∃ name origin, object = .tree (.moduleImport name origin)
      · obtain ⟨name, origin, rfl⟩ := imports
        refine (additive_explained _ _).cons trivial (explained_importModule (ih _) ?_)
        intro place document reads leads
        exact .inr ⟨Nat.succ_pos _, ⟨document, reads⟩, runtime, name, origin, context, rfl,
          (State.leadsTo_visit_iff runtime _).mp leads⟩
      · have plain : Routine False runtime (evaluateStep runtime object context) :=
          routine_evaluateStep_of object fun name origin same => imports ⟨name, origin, same⟩
        exact (additive_explained _ _).routine plain (ih _) False.elim frames state

end

/-! ### What is imported is loaded -/

/-- Where an import leads to a file that is neither loaded nor being loaded, the file begins to be
loaded. -/
def Heeded (files : Files) (place : Place) (moments : List Moment) : Prop :=
  ∀ visit ∈ moments, visit.ImportsFile files place →
    (∀ walker name origin context,
      visit.deed = .visit walker (.tree (.moduleImport name origin)) context →
      (visit.state.registryOf walker).loaded? place = none ∧
        place ∉ (visit.state.registryOf walker).loading) →
    ∃ m ∈ moments, m.entered? = some place

theorem additive_heeded (files : Files) (place : Place) : Additive (Heeded files place) where
  nil := by simp [Heeded]
  append first second visit mem imports free := by
    rcases List.mem_append.mp mem with early | late
    · obtain ⟨m, mem, enters⟩ := first visit early imports free
      exact ⟨m, List.mem_append_left _ mem, enters⟩
    · obtain ⟨m, mem, enters⟩ := second visit late imports free
      exact ⟨m, List.mem_append_right _ mem, enters⟩
  idle m idle visit mem imports free := by
    obtain ⟨-, -, walker, name, origin, context, visits, -⟩ := imports
    rw [List.mem_singleton.mp mem] at visits
    simp [Moment.Idle, visits] at idle

section

variable {settings : Settings} {depth : Nat} {frames : List Frame} {state : State}
variable {place : Place}

theorem Heeded.single {m : Moment} (other : ∀ runtime object context,
    m.deed ≠ .visit runtime object context) : Heeded files place [m] := by
  intro visit mem imports
  obtain ⟨-, -, walker, name, origin, context, visits, -⟩ := imports
  rw [List.mem_singleton.mp mem] at visits
  exact absurd visits (other _ _ _)

/-- The file that an import leads to begins to be loaded. -/
theorem enters_importModule (depth : Nat) (frames : List Frame) {runtime : RuntimeId}
    {name : String} (node : Node) {document : Node}
    (leads : state.LeadsTo settings.files runtime name place)
    (reads : settings.files.program place = .ok document)
    (absent : (state.registryOf runtime).loaded? place = none)
    (idle : place ∉ (state.registryOf runtime).loading) :
    ∃ m ∈ (importModule runtime node name).moments settings depth frames state,
      m.entered? = some place := by
  have free : (state.registryOf runtime).isLoading place = false := by
    simpa [Registry.isLoading] using idle
  have first {α β : Type} {rule : Rule α} (f : α → Rule β)
      (h : ∃ m ∈ rule.moments settings depth frames state, m.entered? = some place) :
      ∃ m ∈ (rule >>= f).moments settings depth frames state, m.entered? = some place := by
    obtain ⟨m, mem, enters⟩ := h
    refine ⟨m, ?_, enters⟩
    simp only [moments, momentsWith_bind]
    exact List.mem_append_left _ mem
  refine first _ ?_
  simp only [moduleOf, leads.isLocal, if_true, map_eq_pure_bind]
  refine first _ ?_
  simp only [localModule, moments_inspect, leads.found, moduleOfFile, absent, free,
    Bool.false_eq_true, if_false, reads]
  let marked := Change.apply state (.mark document)
  let added := Change.apply marked (.addRuntime runtime place.up)
  let module := marked.runtimes.size
  have shape : (evaluateModule runtime place document).moments settings depth frames state =
      ⟨depth, frames, state, .change (.mark document)⟩ ::
        ⟨depth, frames, marked, .change (.addRuntime runtime place.up)⟩ ::
        (load runtime module place (state.mark document).1 (added.runtime module).root).moments
          settings depth frames added := rfl
  refine ⟨⟨depth, frames, added, .enter (.loading runtime place)⟩, ?_, rfl⟩
  rw [shape]
  simp [load, moments, momentsWith]

theorem heeded_parts (settings : Settings) (depth : Nat) (place : Place) :
    Additive.Parts (Heeded settings.files place) settings depth := by
  have additive := additive_heeded settings.files place
  induction depth with
  | zero =>
      intro runtime object context frames state visit mem imports
      have positive := imports.positive
      rw [List.mem_singleton.mp mem] at positive
      exact absurd positive (Nat.lt_irrefl 0)
  | succ depth ih =>
      intro runtime object context frames state
      have inner : Heeded settings.files place
          ((evaluateStep runtime object context).moments settings depth frames state) := by
        refine additive.routine (routine_evaluateStep object) ih ?_ frames state
        refine fun _ importer other frames state => additive.moduleOfFile importer other ?_
        refine fun _ module _ _ _ => additive.within (.single (by simp)) ?_ fun _ _ =>
          additive.cons trivial additive.nil
        exact additive.evaluateFile ih module other _ _ (.single (by simp))
      intro visit mem imports free
      rcases List.mem_cons.mp mem with rfl | later
      · obtain ⟨-, ⟨document, reads⟩, walker, name, origin, context, visits, leads⟩ := imports
        obtain ⟨absent, idle⟩ := free walker name origin context visits
        cases visits
        have registry := state.registryOf_visit runtime runtime (.moduleImport name origin)
        obtain ⟨m, mem, enters⟩ := enters_importModule depth frames (.moduleImport name origin)
          ((State.leadsTo_visit_iff runtime (.moduleImport name origin)).mpr leads) reads
          (registry ▸ absent) (registry ▸ idle)
        exact ⟨m, List.mem_cons_of_mem _ (List.mem_cons_of_mem _ mem), enters⟩
      · obtain ⟨m, mem, enters⟩ := inner visit later imports free
        exact ⟨m, List.mem_cons_of_mem _ mem, enters⟩

end

/-- A place that is being loaded after a moment was so before, or it begins to be loaded then. -/
theorem Moment.mem_loading {moment : Moment} {id : RegistryId} {place : Place}
    (mem : place ∈ (moment.nextState.registry id).loading) :
    place ∈ (moment.state.registry id).loading ∨ moment.entered? = some place := by
  have set {state : State} {other : RegistryId} {registry : Registry}
      (mem : place ∈ ((state.setRegistry other registry).registry id).loading) :
      place ∈ (state.registry id).loading ∨ id = other ∧ place ∈ registry.loading := by
    rcases state.registry_setRegistry_cases other id registry with eq | ⟨same, eq⟩
    · exact .inl (eq ▸ mem)
    · exact .inr ⟨same, eq ▸ mem⟩
  obtain ⟨depth, frames, state, deed⟩ := moment
  cases deed with
  | change c =>
      left
      by_cases keeps : ∃ runtime place scope, c = .keep runtime place scope
      · obtain ⟨runtime, other, scope, rfl⟩ := keeps
        rcases set mem with old | ⟨rfl, old⟩
        · exact old
        · exact old
      · have settled := Change.settled id state (c := c) fun runtime place scope same =>
          absurd ⟨runtime, place, scope, same⟩ keeps
        exact settled.loading ▸ mem
  | enter frame =>
      cases frame with
      | loading importer other =>
          rcases set mem with old | ⟨rfl, begun⟩
          · exact .inl old
          · rcases List.mem_cons.mp begun with rfl | old
            · exact .inr rfl
            · exact .inl old
      | _ => exact .inl mem
  | leave frame =>
      cases frame with
      | loading importer other =>
          rcases set mem with old | ⟨rfl, left⟩
          · exact .inl old
          · exact .inl (List.mem_filter.mp left).1
      | _ => exact .inl mem
  | fail runtime cause node =>
      have settled := state.settled_reportError id runtime cause
      exact .inl (settled.loading ▸ mem)
  | visit _ _ _ | halt _ => exact .inl mem

/-! ### Runs of files -/

namespace Runner

variable {hosted : Bool} {settings : Settings} {depth : Nat} {runner : Runner} {state : State}

/-- Nothing was started yet, and the registry of the runner, which is that of all runtimes, knows no
file. -/
structure Unused (hosted : Bool) (runner : Runner) (state : State) : Prop where
  sound : state.Sound hosted
  valid : runner.Valid hosted state
  shared : ∀ id, id < state.runtimes.size →
    (state.runtime id).registry = (state.runtime runner.runtime).registry
  loaded : (state.registryOf runner.runtime).loaded = []
  loading : (state.registryOf runner.runtime).loading = []
  unstarted : state.starts = []

theorem additive_registerAll {P : List Moment → Prop} (additive : Additive P)
    (settings : Settings) (depth : Nat) (registry : RegistryId) (modules : List (String × Source))
    (frames : List Frame) (state : State) :
    P ((registerAll registry modules).moments settings depth frames state) := by
  induction modules generalizing state with
  | nil => exact additive.nil
  | cons entry rest ih =>
      simp only [registerAll, moments_inspect]
      split
      · exact additive.idle _ trivial
      · exact additive.cons trivial (ih _)

/-- The run of a file adds up what its program does. -/
theorem additive_moments {P : List Moment → Prop} (additive : Additive P)
    (parts : Additive.Parts P settings depth) (place : Place) (program : Node) (state : State)
    (begins : ∀ depth frames state, P [⟨depth, frames, state, .change (.begin place)⟩]) :
    P (runner.moments settings depth (some place) program state) := by
  unfold moments programRule
  rw [moments_inspect]
  refine additive.bind (additive_registerAll additive settings depth _ _ [] state) fun _ after => ?_
  exact additive.cons trivial (additive.evaluateFile parts _ _ _ _ (begins ..))

/-- The run of a file starts that and then each file that it begins to load, unless a module of the
runner is refused before. -/
theorem started_moments (settings : Settings) (depth : Nat) (runner : Runner) (place : Place)
    (program : Node) (state : State) :
    let moments := runner.moments settings depth (some place) program state
    moments.filterMap Moment.started? = [] ∧ moments.filterMap Moment.entered? = [] ∨
      moments.filterMap Moment.started? = place :: moments.filterMap Moment.entered? := by
  let registry := (state.runtime runner.runtime).registry
  let loading : Rule Object := do
    let program ← marked program
    let root ← inspect fun _ state => (state.runtime runner.runtime).root
    evaluateFile runner.runtime place program root
  have silent : Additive fun moments => moments.filterMap Moment.started? = [] ∧
      moments.filterMap Moment.entered? = [] :=
    ⟨⟨rfl, rfl⟩, by simp_all, fun m idle => by simp [idle.silent]⟩
  have registered := additive_registerAll silent settings depth registry runner.modules [] state
  have shape : runner.moments settings depth (some place) program state =
      (registerAll registry runner.modules >>= fun _ => loading).moments settings depth [] state :=
    rfl
  simp only [shape, Rule.moments, momentsWith_bind, List.filterMap_append]
  simp only [Rule.moments] at registered
  rw [registered.1, registered.2]
  rcases (registerAll registry runner.modules).run (TreeScript.evaluate depth) settings state with
    ⟨reason | _, after⟩
  · exact .inl ⟨rfl, rfl⟩
  · exact .inr (started_evaluateFile (prompt_parts settings depth) ..)

/-- The run of a file does to a registry what evaluations do. -/
theorem orderly_programRule (depth : Nat) (runner : Runner) (id : RegistryId) (place : Place)
    (program : Node) :
    (runner.programRule (some place) program).Orderly settings id depth := by
  have parts := orderlyParts settings id depth
  have registered (registry : RegistryId) (modules : List (String × Source)) :
      (registerAll registry modules).Orderly settings id depth := by
    induction modules with
    | nil => exact orderly_done ()
    | cons entry rest ih =>
        intro frames state
        simp only [registerAll, orderlyAt_inspect]
        split
        · exact orderly_halt _ frames state
        · exact orderly_change (by simp) ih frames state
  intro frames state
  simp only [programRule, orderlyAt_inspect]
  refine orderly_bind (registered _ _) (fun _ => ?_) frames state
  exact orderly_look fun _ after => orderly_change (c := .mark program) (by simp)
    (orderly_look fun _ _ => orderly_evaluateFile parts _ place (after.mark program).1 _)

/-- All runtimes go on to share one registry. -/
theorem Shared.next {id : RegistryId} {first : Nat} {moment : Moment}
    (proper : moment.deed.Proper hosted first moment.frames moment.state)
    (shared : ∀ i, i < moment.state.runtimes.size → (moment.state.runtime i).registry = id)
    {i : RuntimeId} (inside : i < moment.nextState.runtimes.size) :
    (moment.nextState.runtime i).registry = id := by
  have grows := moment.grows
  by_cases old : i < moment.state.runtimes.size
  · rw [(grows.runtime i old).registry]
    exact shared i old
  · obtain ⟨depth, frames, state, deed⟩ := moment
    have same (size : (Moment.nextState ⟨depth, frames, state, deed⟩).runtimes.size =
        state.runtimes.size) : False := old (size ▸ inside)
    cases deed with
    | change c =>
        rcases c.size_runtimes state with size | ⟨importer, directory, rfl⟩
        · exact (same size).elim
        · have new : i < (Change.apply state (.addRuntime importer directory)).runtimes.size :=
            inside
          rw [Change.size_addRuntime] at new
          obtain rfl := Nat.le_antisymm (Nat.le_of_lt_succ new) (Nat.le_of_not_lt old)
          simp only [Moment.nextState, Change.runtime_addRuntime]
          exact shared importer proper.2.1
    | enter frame => exact (same (frame.size_enter state)).elim
    | leave frame => exact (same (frame.size_leave state)).elim
    | fail runtime cause node =>
        refine (same ?_).elim
        simp only [Moment.nextState, State.reportError]
        split <;> rfl
    | visit _ _ _ | halt _ => exact (same rfl).elim

/-- The preparation of a run leaves the registries of the runtimes. -/
theorem registry_prepared (settings : Settings) (runner : Runner) (state : State) (id : RuntimeId) :
    ((runner.prepared settings state).runtime id).registry = (state.runtime id).registry :=
  runner.view_prepared Runtime.registry settings state (fun _ _ => rfl) (fun _ _ => rfl) id

theorem Unused.prepared (unused : Unused hosted runner state) (settings : Settings)
    (directory : Option Place) :
    Unused hosted { runner with directory }
      (({ runner with directory } : Runner).prepared settings state) where
  sound := sound_prepared unused.sound unused.valid.runtime
  valid := Valid.prepared ⟨unused.valid.runtime, unused.valid.modules⟩
  shared id inside := by
    rw [registry_prepared, registry_prepared]
    refine unused.shared id ?_
    simpa [Runner.prepared, State.renewJournal] using inside
  loaded := by
    rw [State.registryOf, registry_prepared]
    exact unused.loaded
  loading := by
    rw [State.registryOf, registry_prepared]
    exact unused.loading
  unstarted := unused.unstarted

/-- The run of a file begins to load no file twice, and it loads exactly those files with a program
to which imports lead. -/
theorem Unused.loads (unused : Unused hosted runner state) (settings : Settings) (depth : Nat)
    (place : Place) (program : Node) :
    let moments := runner.moments settings depth (some place) program state
    (moments.filterMap Moment.entered?).Nodup ∧
    ∀ other, other ∈ moments.filterMap Moment.entered? ↔
      ∃ visit ∈ moments, visit.ImportsFile settings.files other := by
  intro moments
  let id := (state.runtime runner.runtime).registry
  have run := run_sound settings unused.sound unused.valid depth (some place) program
  have linked := runner.moments_linked settings depth (some place) program state
  have orderly : (state.registry id).Orderly := by
    have loading : (state.registry id).loading = [] := unused.loading
    exact ⟨by simp [loading], by simp [loading]⟩
  have founded : ∀ m ∈ moments, m.Founded := by
    intro m mem importer other enters
    have entry := run.proper m mem
    rw [enters] at entry
    obtain ⟨sound, inside⟩ := entry
    exact ⟨inside, sound.registry_lt importer inside⟩
  have course := orderly_programRule depth runner id place program [] state orderly founded
  have shared := (linked.invariant (P := fun _ state => ∀ i, i < state.runtimes.size →
    (state.runtime i).registry = id) (fun m mem shared _ inside =>
      Shared.next (run.proper m mem) shared inside) unused.shared).2
  have begins {m : Moment} {other : Place} (mem : m ∈ moments) (enters : m.entered? = some other) :
      m.Begins id other := by
    obtain ⟨importer, deed⟩ := Moment.entered?_eq_some enters
    exact ⟨importer, deed, shared m mem importer (founded m mem importer other deed).1⟩
  refine ⟨?_, fun other => ⟨fun mem => ?_, ?_⟩⟩
  · refine List.pairwise_filterMap.mpr (course.apart.imp_of_mem fun mem mem' apart => ?_)
    rintro other enters _ enters' rfl
    exact apart other (begins mem enters) (begins mem' enters')
  · obtain ⟨m, mem, enters⟩ := List.mem_filterMap.mp mem
    have explained : Explained settings.files (fun _ => False) moments :=
      additive_moments (additive_explained _ _) (explained_parts settings depth _) place program
        state (by simp [Explained, Moment.entered?])
    exact (explained m mem other enters).resolve_left not_false
  · rintro ⟨visit, mem, imports⟩
    -- Otherwise the file is never loaded or being loaded, so the import loads it.
    refine Classical.byContradiction fun absent => ?_
    have never : ∀ m ∈ moments, m.entered? ≠ some other :=
      fun m mem enters => absent (List.mem_filterMap.mpr ⟨m, mem, enters⟩)
    have loaded : (state.registry id).loaded = [] := unused.loaded
    have loading : (state.registry id).loading = [] := unused.loading
    have idle := (linked.invariant (P := fun _ state => other ∉ (state.registry id).loading)
      (fun m mem idle later => (Moment.mem_loading later).elim idle (never m mem))
      (by simp [loading])).2
    have unloaded : ∀ m ∈ moments, (m.state.registry id).loaded? other = none := by
      intro m mem
      cases found : (m.state.registry id).loaded? other with
      | none => rfl
      | some scope =>
          have grows := m.grows.trans (linked.grows.2 m mem).2
          have final := Registry.loaded?_of_prefix (grows.loaded id) found
          obtain ⟨before, entry, inside, after, eq, loads, -⟩ :=
            course.once other scope (by simp [Registry.loaded?, loaded]) final
          obtain ⟨importer, deed, -⟩ := loads.begins
          have within : entry ∈ moments := by
            have whole : moments = before ++ entry :: (inside ++ after) := eq
            simp [whole]
          exact absurd (by simp [Moment.entered?, deed]) (never entry within)
    have heeded : Heeded settings.files other moments :=
      additive_moments (additive_heeded _ other) (heeded_parts settings depth other) place program
        state fun _ _ _ => .single (by simp)
    have free : ∀ walker name origin context,
        visit.deed = .visit walker (.tree (.moduleImport name origin)) context →
        (visit.state.registryOf walker).loaded? other = none ∧
          other ∉ (visit.state.registryOf walker).loading := by
      intro walker name origin context visits
      have proper := run.proper visit mem
      rw [visits] at proper
      rw [State.registryOf, shared visit mem walker proper.1.runtime_lt]
      exact ⟨unloaded visit mem, idle visit mem⟩
    obtain ⟨m, entered, enters⟩ := heeded visit mem imports free
    exact never m entered enters

theorem starts_runFrom (settings : Settings) (depth : Nat) (runner : Runner) (place : Option Place)
    (script : Script) (state : State) :
    (runner.runFrom depth place script settings state).2.starts =
      state.starts ++
        (runner.scriptMoments settings depth place script state).filterMap Moment.started? := by
  have noted {state : State} (report : Report) :
      (runner.failWith report settings state).2.starts = state.starts :=
    (State.starts_record ..).trans (List.append_nil _)
  unfold scriptMoments
  rw [runFrom_apply]
  cases script.load settings.files.reader with
  | error fault =>
      simp only [List.filterMap_nil, List.append_nil]
      cases fault.interrupt? with
      | some reason => rfl
      | none => exact noted _
  | ok program =>
      have started := (runner.moments_linked settings depth place program
        (runner.prepared settings state)).starts
      simp only
      generalize runner.evaluateProgram depth place program settings
        (runner.prepared settings state) = outcome at started ⊢
      obtain ⟨ended, after⟩ := outcome
      cases ended with
      | ok value => exact started
      | error reason =>
          simp only
          cases reason.report settings.room (after.runtime runner.runtime).current with
          | ok report => exact (noted report).trans started
          | error obstacle => exact started

/-- A runner that has run nothing runs a file. Each of the other files is started once at most, and
the file itself is started again exactly when an import is evaluated that leads to it, if it holds a
program. -/
theorem runFile_starts (unused : Unused hosted runner state) (settings : Settings) (depth : Nat)
    (path : Path) :
    let place := settings.files.working.resolve path
    let starts := (runner.runFile depth path settings state).2.starts
    let moments := runner.callMoments settings depth state (.file path)
    (starts = [] ∨ ∃ imported, starts = place :: imported ∧ imported.Nodup) ∧
    (starts.Nodup ↔ ∀ visit ∈ moments, ¬ visit.ImportsFile settings.files place) := by
  intro place starts moments
  have unstarted := unused.unstarted
  cases decoded : Document.atPath settings.files path with
  | error fault =>
      have none : starts = [] := by
        simp only [starts, runFile, Action.settings, Action.bind_apply, decoded]
        cases fault.interrupt? decodingKinds with
        | some reason => exact unstarted
        | none => exact (State.starts_record ..).trans ((List.append_nil _).trans unstarted)
      have idle : moments = [] := by simp only [moments, callMoments, decoded]
      simp [none, idle]
  | ok document =>
      let other := runner.beside settings.files path
      have ready : Unused hosted other (other.prepared settings state) := unused.prepared settings _
      have same : starts = moments.filterMap Moment.started? := by
        have ran := other.starts_runFrom settings depth (some place) (.data document) state
        rw [unstarted] at ran
        simp only [starts, moments, runFile, callMoments, Action.settings, Action.bind_apply,
          decoded]
        exact ran
      have run : moments = [] ∨ ∃ program, moments = other.moments settings depth (some place)
          program (other.prepared settings state) := by
        simp only [moments, callMoments, decoded, scriptMoments]
        cases (Script.data document).load settings.files.reader with
        | error fault => exact .inl rfl
        | ok program => exact .inr ⟨program, rfl⟩
      rcases run with idle | ⟨program, eq⟩
      · simp [same, idle]
      · obtain ⟨nodup, loads⟩ := ready.loads settings depth place program
        have first := other.started_moments settings depth place program
          (other.prepared settings state)
        rw [same, eq]
        rcases first with ⟨none, silent⟩ | first
        · rw [none]
          refine ⟨.inl rfl, iff_of_true List.nodup_nil fun visit mem imports => ?_⟩
          have entered := (loads place).mpr ⟨visit, mem, imports⟩
          rw [silent] at entered
          cases entered
        · rw [first, List.nodup_cons]
          refine ⟨.inr ⟨_, rfl, nodup⟩, ?_⟩
          rw [loads place]
          simp [nodup]

end Runner

/-- A file that prints and then imports the one beside it. -/
def Files.pair (beside : List String) : Files := .ofLines [
  ("main.yaml", [
    "type: Program",
    "body:",
    "- type: FunctionCall",
    "  name: print",
    "  parameters:",
    "  - type: StringLiteral",
    "    value: main",
    "- type: ModuleImport",
    "  name: ./lib"]),
  ("lib.yaml", beside)]

theorem Runner.main_unused : Runner.Unused false Runner.main State.fresh where
  sound := (Session.fresh false).sound
  valid := Runner.main_valid false
  shared id inside := by
    obtain rfl := Nat.lt_one_iff.mp inside
    rfl
  loaded := rfl
  loading := rfl
  unstarted := rfl

/-- Where the file beside does not import the first one, each of the two is started once. -/
theorem Runner.runFile_starts_number :
    let settings : Settings := .quiet (.pair ["type: NumberLiteral", "value: 1"])
    let path := Path.ofText "main.yaml"
    (Runner.main.runFile 12 path settings State.fresh).2.starts =
        [⟨.origin, ["main.yaml"]⟩, ⟨.origin, ["lib.yaml"]⟩] ∧
      ∀ visit ∈ Runner.main.callMoments settings 12 State.fresh (.file path),
        ¬ visit.ImportsFile settings.files (settings.files.working.resolve path) := by
  intro settings path
  obtain ⟨-, iff⟩ := Runner.runFile_starts Runner.main_unused settings 12 path
  have starts : (Runner.main.runFile 12 path settings State.fresh).2.starts =
      [⟨.origin, ["main.yaml"]⟩, ⟨.origin, ["lib.yaml"]⟩] := by decide +kernel
  refine ⟨starts, iff.mp ?_⟩
  rw [starts]
  decide

/-- Where the file beside imports the first one, that is started again and prints again, and only
then the import of the file beside is refused. -/
theorem Runner.file_starts_again :
    let settings : Settings := .quiet (.pair ["type: ModuleImport", "name: ./main"])
    let after := (Runner.main.runFile 12 (.ofText "main.yaml") settings State.fresh).2
    after.starts =
        [⟨.origin, ["main.yaml"]⟩, ⟨.origin, ["lib.yaml"]⟩, ⟨.origin, ["main.yaml"]⟩] ∧
      ¬ after.starts.Nodup ∧
      after.journal 1 = [⟨.output, "main"⟩, ⟨.output, "main"⟩,
        ⟨.error, "ReferenceError: " ++ Cause.moduleInProgress.message⟩] := by
  decide +kernel

end TreeScript
