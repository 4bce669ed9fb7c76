import TreeScript.Proofs.CallStack

/-!
# Sessions

A host makes registries and runtimes and runs programs in them, one after the other. Between the
runs a host with code of its own may also change the state, as long as what it adds is valid. Every
state that a session reaches is sound, and no call is active in it.
-/

namespace TreeScript

namespace State

theorem sound_addRegistry {hosted : Bool} {state : State} (sound : state.Sound hosted) :
    state.addRegistry.2.Sound hosted := by
  have found (id : RegistryId) : state.addRegistry.2.registry id = state.registry id := by
    simp only [addRegistry, registry, Array.getD_eq_getD_getElem?, Array.getElem?_push]
    split
    · rename_i h
      simp [h]
    · rfl
  refine ⟨sound.heap, sound.root_lt, sound.root_parent, sound.root_injective, ?_, ?_, ?_⟩
  · intro id inside
    have size : state.addRegistry.2.registries.size = state.registries.size + 1 := by
      simp [addRegistry]
    rw [size]
    exact Nat.lt_succ_of_lt (sound.registry_lt id inside)
  · intro id entry h
    rw [found] at h
    exact sound.modules id entry h
  · intro id entry h
    rw [found] at h
    exact sound.loaded id entry h

/-- A module is left alone by a change of another runtime. -/
theorem IsModule.modifyRuntime {state : State} {place : Place} {scope : ScopeId}
    (module : state.IsModule place scope) {id : RuntimeId} (change : Runtime → Runtime)
    (ne : scope ≠ (state.runtime id).root) :
    (state.modifyRuntime id change).IsModule place scope := by
  obtain ⟨i, inside, root, directory⟩ := module
  have other : i ≠ id := by
    rintro rfl
    exact ne root.symm
  refine ⟨i, (size_modifyRuntime ..).symm ▸ inside, ?_, ?_⟩
  · rw [runtime_modifyRuntime_of_ne state change other]
    exact root
  · rw [runtime_modifyRuntime_of_ne state change other]
    exact directory

theorem MadeByHost.modifyRuntime {state : State} {id : RuntimeId} (own : state.MadeByHost id)
    (other : RuntimeId) {change : Runtime → Runtime}
    (root : ∀ runtime : Runtime, (change runtime).root = runtime.root) :
    (state.modifyRuntime other change).MadeByHost id where
  runtime_lt := (size_modifyRuntime ..).symm ▸ own.runtime_lt
  root_ne i entry mem := by
    rw [state.view_modifyRuntime Runtime.root other root]
    exact own.root_ne i entry mem

/-- A runtime of the host may be changed in everything but its root and its registry. -/
theorem Sound.modifyOwn {hosted : Bool} {state : State} (sound : state.Sound hosted)
    {id : RuntimeId} (own : state.MadeByHost id) {change : Runtime → Runtime}
    (root : ∀ runtime : Runtime, (change runtime).root = runtime.root)
    (registry : ∀ runtime : Runtime, (change runtime).registry = runtime.registry) :
    (state.modifyRuntime id change).Sound hosted :=
  sound.modifyRuntime id root registry fun i entry mem =>
    (sound.loaded i entry mem).modifyRuntime change (own.root_ne i entry mem)

theorem sound_renewJournal {hosted : Bool} {state : State} (sound : state.Sound hosted)
    {id : RuntimeId} (own : state.MadeByHost id) : (state.renewJournal id).Sound hosted := by
  have changed : (state.modifyRuntime id fun r => { r with journal := state.journals }).Sound
      hosted := sound.modifyOwn own (fun _ => rfl) fun _ => rfl
  exact ⟨changed.heap, changed.root_lt, changed.root_parent, changed.root_injective,
    changed.registry_lt, changed.modules, changed.loaded⟩

theorem MadeByHost.renewJournal {state : State} {id : RuntimeId} (own : state.MadeByHost id)
    (other : RuntimeId) : (state.renewJournal other).MadeByHost id := by
  have changed :
      (state.modifyRuntime other fun r => { r with journal := state.journals }).MadeByHost
      id := own.modifyRuntime other fun _ => rfl
  exact ⟨changed.runtime_lt, changed.root_ne⟩

/-- What has nothing to do with journals is the same in every runtime. -/
theorem view_renewJournal {β : Type} (view : Runtime → β) (state : State) (id : RuntimeId)
    (other : ∀ (runtime : Runtime) (journal : JournalId),
      view { runtime with journal } = view runtime)
    (i : RuntimeId) : view ((state.renewJournal id).runtime i) = view (state.runtime i) := by
  change view ((state.modifyRuntime id fun r => { r with journal := state.journals }).runtime i) = _
  exact state.view_modifyRuntime view id (fun r => other r _) i

theorem idle_addRuntime {state : State} (idle : state.Idle) (registry : RegistryId)
    (directory : Option Place) (output : Option Output) (reports : Bool) :
    (state.addRuntime registry directory output reports).2.Idle := by
  intro id inside
  have size : (state.addRuntime registry directory output reports).2.runtimes.size =
      state.runtimes.size + 1 := by simp [State.addRuntime, allocate]
  rcases Nat.lt_succ_iff_lt_or_eq.mp (Nat.lt_of_lt_of_eq inside size) with old | rfl
  · rw [runtime_addRuntime_of_lt _ _ _ _ _ old]
    exact idle id old
  · rw [runtime_addRuntime_self]

theorem idle_renewJournal {state : State} (idle : state.Idle) (id : RuntimeId) :
    (state.renewJournal id).Idle := by
  intro other inside
  change ((state.modifyRuntime id fun r => { r with journal := state.journals }).runtime
    other).calls = []
  rw [state.view_modifyRuntime Runtime.calls id]
  · exact idle other (by simpa [State.renewJournal] using inside)
  · exact fun _ => rfl

end State

namespace Runner

variable {hosted : Bool} {settings : Settings} {state : State} {runner : Runner}

/-- The state in which the evaluation of a script begins. -/
def prepared (settings : Settings) (runner : Runner) (state : State) : State :=
  (state.renewJournal runner.runtime).modifyRuntime runner.runtime fun runtime =>
    { runtime with
      calls := []
      directory := some (runner.directory.getD settings.files.working) }

/-- What has nothing to do with journals, calls and directories is the same in every runtime. -/
theorem view_prepared {β : Type} (view : Runtime → β) (settings : Settings) (runner : Runner)
    (state : State)
    (other : ∀ (runtime : Runtime) (journal : JournalId),
      view { runtime with journal } = view runtime)
    (own : ∀ (runtime : Runtime) (directory : Option Place),
      view { runtime with calls := [], directory } = view runtime) (id : RuntimeId) :
    view ((runner.prepared settings state).runtime id) = view (state.runtime id) := by
  unfold prepared
  rw [State.view_modifyRuntime view _ runner.runtime]
  · exact state.view_renewJournal view runner.runtime other id
  · exact fun runtime => own runtime _

/-- A run is its preparation, then loading, then the evaluation of the program if there is one, and
last the report of what ended that early. -/
theorem runFrom_apply (runner : Runner) (depth : Nat) (place : Option Place) (script : Script)
    (settings : Settings) (state : State) :
    runner.runFrom depth place script settings state = match script.load settings.files.reader with
      | .error fault => match fault.interrupt? with
        | some reason => (.error reason, runner.prepared settings state)
        | none => runner.failToLoad fault.message settings (runner.prepared settings state)
      | .ok program =>
          match runner.evaluateProgram depth place program settings
            (runner.prepared settings state) with
          | (.ok value, after) =>
              (.ok ⟨.success value, (after.runtime runner.runtime).journal⟩, after)
          | (.error reason, after) =>
              match reason.report settings.room (after.runtime runner.runtime).current with
              | .ok report => runner.failWith report settings after
              | .error obstacle => (.error obstacle.interrupt, after) := by
  unfold runFrom
  simp only [Action.settings, Action.bind_apply, Action.update_apply]
  change (?_ : Action RunResult) settings (runner.prepared settings state) = _
  generalize runner.prepared settings state = begun
  cases script.load settings.files.reader with
  | error fault =>
      simp only
      cases fault.interrupt? <;> rfl
  | ok program =>
      simp only [Action.bind_apply, Action.attempt]
      generalize runner.evaluateProgram depth place program settings begun = outcome
      obtain ⟨result, after⟩ := outcome
      cases result with
      | ok value => rfl
      | error reason =>
          simp only [Action.bind_apply, Action.inspect_apply]
          cases reason.report settings.room (after.runtime runner.runtime).current <;> rfl

/-- A run changes the state by its preparation, by the evaluation of the program if there is one,
and by what it notes at the end. -/
theorem runFrom_state (P : State → Prop) (runner : Runner) {depth : Nat} {place : Option Place}
    {script : Script} (start : P (runner.prepared settings state))
    (evaluated : ∀ program, script.load settings.files.reader = .ok program →
      P (runner.evaluateProgram depth place program settings (runner.prepared settings state)).2)
    (noted : ∀ {state} id note, P state → P (state.note id note)) :
    P (runner.runFrom depth place script settings state).2 := by
  rw [runFrom_apply]
  cases loaded : script.load settings.files.reader with
  | error fault =>
      simp only
      cases fault.interrupt? with
      | some reason => exact start
      | none => exact noted _ _ start
  | ok program =>
      have run := evaluated program loaded
      simp only
      generalize runner.evaluateProgram depth place program settings
        (runner.prepared settings state) = outcome at run ⊢
      obtain ⟨result, after⟩ := outcome
      cases result with
      | ok value => exact run
      | error reason =>
          simp only
          cases reason.report settings.room (after.runtime runner.runtime).current with
          | ok report => exact noted _ _ run
          | error obstacle => exact run

/-- What a run of a file does to the state is what it does from a valid runner on. -/
theorem runFile_state (P : State → Prop) {depth : Nat} {path : Path} (start : P state)
    (renewed : P (state.renewJournal runner.runtime))
    (prepared : ∀ directory, P (({ runner with directory } : Runner).prepared settings state))
    (evaluated : ∀ directory place program,
      P (({ runner with directory } : Runner).evaluateProgram depth place program settings
        (({ runner with directory } : Runner).prepared settings state)).2)
    (noted : ∀ {state} id note, P state → P (state.note id note)) :
    P (runner.runFile depth path settings state).2 := by
  unfold runFile
  simp only [Action.settings, Action.bind_apply]
  cases Document.atPath settings.files path with
  | error fault =>
      simp only
      cases fault.interrupt? decodingKinds with
      | some reason => exact start
      | none => exact noted _ _ renewed
  | ok document =>
      exact runFrom_state P { runner with directory := _ } (prepared _)
        (fun program _ => evaluated _ _ program) noted

theorem sound_prepared (sound : state.Sound hosted) (own : state.MadeByHost runner.runtime) :
    (runner.prepared settings state).Sound hosted :=
  (State.sound_renewJournal sound own).modifyOwn (own.renewJournal _) (fun _ => rfl) fun _ => rfl

theorem idle_prepared (idle : state.Idle) : (runner.prepared settings state).Idle := by
  have renewed := State.idle_renewJournal idle runner.runtime
  intro id inside
  have inside' : id < (state.renewJournal runner.runtime).runtimes.size := by
    simpa [prepared] using inside
  unfold prepared
  by_cases same : id = runner.runtime
  · subst same
    rw [State.runtime_modifyRuntime_self _ _ inside']
  · rw [State.runtime_modifyRuntime_of_ne _ _ same]
    exact renewed id inside'

theorem Valid.renewJournal (valid : runner.Valid hosted state) (id : RuntimeId) :
    runner.Valid hosted (state.renewJournal id) where
  runtime := valid.runtime.renewJournal id
  modules entry mem := by
    obtain ⟨hosts, source⟩ := valid.modules entry mem
    refine ⟨hosts, source.mono ⟨rfl, Nat.le_refl _, ?_⟩⟩
    simp [State.extent, State.renewJournal]

theorem Valid.note (valid : runner.Valid hosted state) (id : RuntimeId) (note : Note) :
    runner.Valid hosted (state.note id note) :=
  ⟨⟨valid.runtime.runtime_lt, valid.runtime.root_ne⟩, valid.modules⟩

theorem Valid.prepared (valid : runner.Valid hosted state) :
    runner.Valid hosted (runner.prepared settings state) where
  runtime := (valid.runtime.renewJournal _).modifyRuntime _ fun _ => rfl
  modules entry mem := by
    obtain ⟨hosts, source⟩ := valid.modules entry mem
    refine ⟨hosts, source.mono ⟨rfl, Nat.le_refl _, ?_⟩⟩
    simp [State.extent, Runner.prepared, State.renewJournal]

end Runner

/-! ### The runtimes of the host -/

theorem State.mem_loaded_setRegistry {state : State} {id other : RegistryId} {registry : Registry}
    {entry : Place × ScopeId}
    (mem : entry ∈ ((state.setRegistry other registry).registry id).loaded) :
    entry ∈ (state.registry id).loaded ∨ id = other ∧ entry ∈ registry.loaded := by
  rcases registry_setRegistry_cases state other id registry with eq | ⟨same, eq⟩
  · rw [eq] at mem
    exact .inl mem
  · rw [eq] at mem
    exact .inr ⟨same, mem⟩

/-- The loaded files of a registry are those before and the one that a change keeps. -/
theorem Change.mem_loaded {state : State} {c : Change} {id : RegistryId} {entry : Place × ScopeId}
    (mem : entry ∈ ((c.apply state).registry id).loaded) :
    entry ∈ (state.registry id).loaded ∨ ∃ runtime, c = .keep runtime entry.1 entry.2 := by
  cases c with
  | keep runtime place scope =>
      rcases State.mem_loaded_setRegistry mem with old | ⟨rfl, found⟩
      · exact .inl old
      · exact (List.mem_append.mp found).imp_right fun new => by
          obtain rfl := List.mem_singleton.mp new
          exact ⟨runtime, rfl⟩
  | register registry name source =>
      simp only [Change.apply] at mem
      split at mem
      · rename_i changed registered
        rcases State.mem_loaded_setRegistry mem with old | ⟨rfl, found⟩
        · exact .inl old
        · rw [Registry.loaded_register registered] at found
          exact .inl found
      · exact .inl mem
  | settle registry name scope =>
      rcases State.mem_loaded_setRegistry mem with old | ⟨rfl, found⟩
      · exact .inl old
      · exact .inl found
  | print runtime text =>
      simp only [Change.apply, State.print] at mem
      split at mem <;> exact .inl mem
  | _ => exact .inl mem

theorem Frame.mem_loaded_enter {state : State} {frame : Frame} {id : RegistryId}
    {entry : Place × ScopeId} (mem : entry ∈ ((frame.enter state).registry id).loaded) :
    entry ∈ (state.registry id).loaded := by
  cases frame with
  | loading runtime place =>
      rcases State.mem_loaded_setRegistry mem with old | ⟨rfl, found⟩
      · exact old
      · exact found
  | _ => exact mem

theorem Frame.mem_loaded_leave {state : State} {frame : Frame} {id : RegistryId}
    {entry : Place × ScopeId} (mem : entry ∈ ((frame.leave state).registry id).loaded) :
    entry ∈ (state.registry id).loaded := by
  cases frame with
  | loading runtime place =>
      rcases State.mem_loaded_setRegistry mem with old | ⟨rfl, found⟩
      · exact old
      · exact found
  | _ => exact mem

/-- A runtime that was there before a run is not that of a file that the run loads. -/
theorem State.MadeByHost.next {hosted : Bool} {first : Nat} {moment : Moment} {id : RuntimeId}
    (own : moment.state.MadeByHost id) (old : id < first) (sound : moment.state.Sound hosted)
    (proper : moment.deed.Proper hosted first moment.frames moment.state) :
    moment.nextState.MadeByHost id := by
  have grows := moment.grows
  refine ⟨Nat.lt_of_lt_of_le own.runtime_lt grows.runtimes, fun i entry mem => ?_⟩
  rw [(grows.runtime id own.runtime_lt).root]
  obtain ⟨depth, frames, state, deed⟩ := moment
  cases deed with
  | change c =>
      rcases Change.mem_loaded mem with before | ⟨runtime, rfl⟩
      · exact own.root_ne i entry before
      · obtain ⟨young, le, lt, root⟩ := proper.2.2
        intro same
        have := sound.root_injective young id lt own.runtime_lt (root.trans same)
        exact absurd (this ▸ le) (Nat.not_le_of_lt old)
  | enter frame => exact own.root_ne i entry (Frame.mem_loaded_enter mem)
  | leave frame => exact own.root_ne i entry (Frame.mem_loaded_leave mem)
  | fail runtime cause node =>
      simp only [Moment.nextState, State.reportError] at mem
      split at mem <;> exact own.root_ne i entry mem
  | visit _ _ _ | halt _ => exact own.root_ne i entry mem

/-- A runner may run one program after the other. -/
theorem Runner.Valid.evaluateProgram {hosted : Bool} {state : State} {runner other : Runner}
    (sound : state.Sound hosted) (valid : runner.Valid hosted state)
    (valid' : other.Valid hosted state) (settings : Settings) (depth : Nat) (place : Option Place)
    (program : Node) :
    other.Valid hosted (runner.evaluateProgram depth place program settings state).2 := by
  have run := Runner.run_sound settings sound valid depth place program
  have linked := runner.moments_linked settings depth place program state
  obtain ⟨own, -⟩ := linked.invariant
    (P := fun _ state => state.MadeByHost other.runtime)
    (fun m mem own => own.next valid'.runtime.runtime_lt (run.sound m mem) (run.proper m mem))
    valid'.runtime
  refine ⟨own, fun entry mem => ?_⟩
  obtain ⟨hosts, source⟩ := valid'.modules entry mem
  exact ⟨hosts, source.mono (linked.grows.1.within hosted)⟩

/-! ### What a host does -/

/-- The states that a host reaches. Each run may have settings, a runner and a depth of its own. -/
inductive Session (hosted : Bool) : State → Prop
  | start : Session hosted {}
  | addRegistry {state : State} : Session hosted state → Session hosted state.addRegistry.2
  | addRuntime {state : State} (registry : RegistryId) (directory : Option Place)
      (output : Option Output) (reports : Bool) :
      Session hosted state → registry < state.registries.size →
      Session hosted (state.addRuntime registry directory output reports).2
  /-- Code of the host changes the state. -/
  | change {state : State} (c : Change) :
      Session hosted state → hosted = true → c.Safe hosted state → Session hosted (c.apply state)
  | renewJournal {state : State} (runner : Runner) :
      Session hosted state → runner.Valid hosted state →
      Session hosted (state.renewJournal runner.runtime)
  | prepare {state : State} (settings : Settings) (runner : Runner) :
      Session hosted state → runner.Valid hosted state →
      Session hosted (runner.prepared settings state)
  | evaluate {state : State} (settings : Settings) (depth : Nat) (runner : Runner)
      (place : Option Place) (program : Node) :
      Session hosted state → runner.Valid hosted state →
      Session hosted (runner.evaluateProgram depth place program settings state).2
  | note {state : State} (id : RuntimeId) (note : Note) :
      Session hosted state → Session hosted (state.note id note)

namespace Session

variable {hosted : Bool} {state : State} {runner : Runner}

/-- A session goes on after a script was run. -/
theorem run (session : Session hosted state) (valid : runner.Valid hosted state)
    (settings : Settings) (depth : Nat) (place : Option Place) (script : Script) :
    Session hosted (runner.runFrom depth place script settings state).2 :=
  Runner.runFrom_state (Session hosted) runner (session.prepare settings runner valid)
    (fun program _ => (session.prepare settings runner valid).evaluate settings depth runner place
      program valid.prepared)
    note

/-- A session goes on after the document in a file was run. -/
theorem runFile (session : Session hosted state) (valid : runner.Valid hosted state)
    (settings : Settings) (depth : Nat) (path : Path) :
    Session hosted (runner.runFile depth path settings state).2 := by
  have valid' (directory : Option Place) : Runner.Valid hosted state { runner with directory } :=
    ⟨valid.runtime, valid.modules⟩
  exact Runner.runFile_state (Session hosted) session (session.renewJournal runner valid)
    (fun directory => session.prepare settings _ (valid' directory))
    (fun directory place program => (session.prepare settings _ (valid' directory)).evaluate
      settings depth _ place program (valid' directory).prepared)
    note

theorem sound_idle (session : Session hosted state) : state.Sound hosted ∧ state.Idle := by
  induction session with
  | start => exact ⟨State.sound_empty hosted, fun _ h => absurd h (Nat.not_lt_zero _)⟩
  | addRegistry _ ih => exact ⟨State.sound_addRegistry ih.1, ih.2⟩
  | addRuntime registry directory output reports _ inside ih =>
      exact ⟨ih.1.addRuntime inside directory output reports,
        State.idle_addRuntime ih.2 registry directory output reports⟩
  | change c _ _ safe ih => exact ⟨safe.sound ih.1, (ih.2.tracked.change c).calls⟩
  | renewJournal runner _ valid ih =>
      exact ⟨State.sound_renewJournal ih.1 valid.runtime, State.idle_renewJournal ih.2 _⟩
  | prepare settings runner _ valid ih =>
      exact ⟨Runner.sound_prepared ih.1 valid.runtime, Runner.idle_prepared ih.2⟩
  | evaluate settings depth runner place program _ valid ih =>
      exact ⟨(Runner.run_sound settings ih.1 valid depth place program).final,
        (Runner.run_tracked ih.1 valid ih.2 depth place program).1⟩
  | note id note _ ih => exact ⟨ih.1.record _, ih.2⟩

/-- In every state of a session everything is valid. -/
theorem sound (session : Session hosted state) : state.Sound hosted := session.sound_idle.1

/-- In no state of a session a call is active. -/
theorem idle (session : Session hosted state) : state.Idle := session.sound_idle.2

end Session

/-! ### A host with one runtime -/

/-- The settings with the usual step limit, in which no steps are told. -/
def Settings.quiet (files : Files) : Settings :=
  { stepLimit := defaultStepLimit, tracing := false, files }

/-- Files beside the program, by their names and the lines in them. -/
def Files.ofLines (files : List (String × List String)) : Files where
  origin := "/"
  entries := files.map fun entry =>
    (⟨.origin, [entry.1]⟩, .file (entry.2.flatMap fun line => line.toUTF8.toList ++ [10]))

def Files.empty : Files := .ofLines []

/-- One runtime with a registry of its own, which prints to its journal. -/
def State.solo (reports : Bool) : State :=
  ((State.addRegistry {}).2.addRuntime 0 none none reports).2

/-- One runtime with a registry of its own, which prints to its journal and reports errors. -/
def State.fresh : State := ((State.addRegistry {}).2.addRuntime 0 none none true).2

/-- The program that imports the file `lib` beside it and calls the function `f` of that. -/
def Node.callOfModule : Node :=
  .program [.moduleImport "./lib" {}, .call "./lib.f" [] .absent {}] {}

def Runner.main : Runner := { runtime := 0 }

theorem Session.fresh (hosted : Bool) : Session hosted State.fresh :=
  (Session.start.addRegistry).addRuntime 0 none none true (by decide)

theorem Runner.main_valid (hosted : Bool) : Runner.main.Valid hosted State.fresh where
  runtime := ⟨by decide, fun i entry mem => by
    have none : (State.fresh.registry i).loaded = [] := by
      rcases i with _ | i <;> rfl
    simp [none] at mem⟩
  modules := by simp [main]

end TreeScript
