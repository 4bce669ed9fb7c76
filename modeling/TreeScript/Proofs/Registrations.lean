import TreeScript.Runner

/-!
# Registered modules

A registry is asked to register a source under a name, or for the module of a name. Whatever is
asked, and in whatever order, each name stands for its source or for the scope that the factory of
this source has returned. Once it has, the name keeps that scope, and no factory runs for the name
again, until it gets another source. A request that fails leaves the registry as it is.
-/

namespace TreeScript

/-- What a name with the source stands for at first. -/
def Source.module? : Source → Option Module
  | .scope id => some (.ready id)
  | .factory made => some (.pending made)
  | .invalid => none

namespace Registry

/-! ### Requests -/

/-- What a registry is asked. -/
inductive Request where
  | register (name : String) (source : Source)
  | get (name : String)

/-- What is done for a request. Only a request for a module has an answer: its scope, if it is
known. -/
def Request.rule (id : RegistryId) : Request → Rule (Option ScopeId)
  | register name source => do
      Runner.registerAll id [(name, source)]
      return none
  | get name => registeredModule id name

/-- A request that was dealt with: the state in which it was made, the answer or what ended it
early, and the state after that. -/
structure Handled where
  request : Request
  before : State
  outcome : Except Interrupt (Option ScopeId)
  after : State

/-- The requests to a registry from one state to another, the latest last. Between two of them
anything may happen that leaves the two tables of the registry alone and takes no registry away. -/
inductive Serves (id : RegistryId) (start : State) : List Handled → State → Prop
  | start : Serves id start [] start
  | request {history : List Handled} {state after : State} {request : Request}
      {outcome : Except Interrupt (Option ScopeId)} {evaluator : Evaluator} {settings : Settings} :
      Serves id start history state →
      (request.rule id).run evaluator settings state = (outcome, after) →
      Serves id start (history ++ [⟨request, state, outcome, after⟩]) after
  | between {history : List Handled} {state after : State} : Serves id start history state →
      (after.registry id).modules = (state.registry id).modules →
      (after.registry id).sources = (state.registry id).sources →
      state.registries.size ≤ after.registries.size →
      Serves id start history after

namespace Handled

variable (id : RegistryId) (name : String)

/-- The source of the name is the same after the request. -/
def KeepsSource (handled : Handled) : Prop :=
  (handled.after.registry id).sources.find? name = (handled.before.registry id).sources.find? name

/-- For a request, the factory has run and returned the scope that is the answer. -/
structure Builds (factory : Factory) (scope : ScopeId) (handled : Handled) : Prop where
  request : handled.request = .get name
  outcome : handled.outcome = .ok (some scope)
  ran : handled.after.log = .built factory.label :: handled.before.log
  returned : ∃ evaluator settings ended,
    ((factory.recipe handled.before.factoryRuns).rule name).run evaluator settings
      (handled.before.record (.built factory.label)) = (.ok scope, ended)

/-- The source of the name after a request. Registering its source again does not count. -/
def nextSource (known : Option Source) (handled : Handled) : Option Source :=
  match handled.request, handled.outcome with
  | .register other source, .ok _ =>
      if other = name ∧ known.any source.identical = false then some source else known
  | _, _ => known

/-- The source that the name has after some requests: the last one that was registered under it. -/
def lastSource (history : List Handled) : Option Source := history.foldl (nextSource name) none

/-- All that dealing with a request can come to. -/
inductive Step (id : RegistryId) : Handled → Prop
  | refused {name : String} {state : State} :
      Step id ⟨.register name .invalid, state, .error (.failure (.noModule name)), state⟩
  | again {name : String} {source old : Source} {state : State} :
      (state.registry id).sources.find? name = some old → source.identical old = true →
      Step id ⟨.register name source, state, .ok none, state⟩
  | registered {name : String} {source : Source} {module : Module} {state : State} :
      source.module? = some module →
      ((state.registry id).sources.find? name).any source.identical = false →
      Step id ⟨.register name source, state, .ok none,
        state.setRegistry id { state.registry id with
          sources := (state.registry id).sources.insert name source
          modules := (state.registry id).modules.insert name module }⟩
  | unknown {name : String} {state : State} :
      (state.registry id).modules.find? name = none → Step id ⟨.get name, state, .ok none, state⟩
  | known {name : String} {scope : ScopeId} {state : State} :
      (state.registry id).modules.find? name = some (.ready scope) →
      Step id ⟨.get name, state, .ok (some scope), state⟩
  | built {name : String} {factory : Factory} {scope : ScopeId} {state ended : State} :
      (state.registry id).modules.find? name = some (.pending factory) →
      ended.registries = state.registries →
      Builds name factory scope ⟨.get name, state, .ok (some scope),
        ended.setRegistry id ((state.registry id).settle name scope)⟩ →
      Step id ⟨.get name, state, .ok (some scope),
        ended.setRegistry id ((state.registry id).settle name scope)⟩
  | failed {name : String} {factory : Factory} {reason : Interrupt} {state ended : State} :
      (state.registry id).modules.find? name = some (.pending factory) →
      ended.registries = state.registries → Step id ⟨.get name, state, .error reason, ended⟩

end Handled

/-! ### What is done for a request -/

variable {id : RegistryId} {evaluator : Evaluator} {settings : Settings} {state after : State}
variable {outcome : Except Interrupt (Option ScopeId)} {name : String}

/-- Registering what is registered leaves the state as it is. -/
theorem setRegistry_registry (state : State) (id : RegistryId) :
    state.setRegistry id (state.registry id) = state := by
  rcases Nat.lt_or_ge id state.registries.size with inside | outside
  · simp [State.setRegistry, State.registry, inside, Array.setIfInBounds]
  · exact state.setRegistry_of_size_le _ outside

/-- Whatever a factory does, it touches no registry and tells nothing. -/
theorem run_recipe {recipe : Recipe} {ended : State} {outcome : Except Interrupt ScopeId}
    (ran : (recipe.rule name).run evaluator settings state = (outcome, ended)) :
    ended.registries = state.registries ∧ ended.log = state.log := by
  cases recipe <;> cases ran <;> exact ⟨rfl, rfl⟩

/-- A source is refused, or it is the source of the name already, or it becomes that. -/
theorem register_cases (registry : Registry) (name : String) (source : Source) :
    (source = .invalid ∧ registry.register name source = .error (.noModule name)) ∨
      (∃ old, registry.sources.find? name = some old ∧ source.identical old = true ∧
        registry.register name source = .ok registry) ∨
      ∃ module, source.module? = some module ∧
        (registry.sources.find? name).any source.identical = false ∧
        registry.register name source = .ok { registry with
          sources := registry.sources.insert name source
          modules := registry.modules.insert name module } := by
  cases same : (registry.sources.find? name).any source.identical with
  | true =>
      obtain ⟨old, known, same⟩ := Option.any_eq_true .. |>.mp same
      cases source with
      | invalid => cases same
      | scope made => exact .inr (.inl ⟨old, known, same, by simp [register, known, same]⟩)
      | factory made => exact .inr (.inl ⟨old, known, same, by simp [register, known, same]⟩)
  | false =>
      cases source with
      | invalid => exact .inl ⟨rfl, rfl⟩
      | scope made => exact .inr (.inr ⟨_, rfl, rfl, by simp [register, same]⟩)
      | factory made => exact .inr (.inr ⟨_, rfl, rfl, by simp [register, same]⟩)

theorem run_register (source : Source) :
    ((Request.register name source).rule id).run evaluator settings state =
      match (state.registry id).register name source with
      | .ok registry => (.ok none, state.setRegistry id registry)
      | .error failure => (.error (.failure failure), state) := by
  simp only [Request.rule, Runner.registerAll, Rule.run_bind, Rule.inspect, Rule.run]
  cases done : (state.registry id).register name source with
  | error failure => rfl
  | ok registry =>
      simp only [Rule.run_bind, Rule.perform, Rule.run, Change.apply, done]
      rfl

theorem step_of_register {source : Source}
    (ran : ((Request.register name source).rule id).run evaluator settings state =
      (outcome, after)) :
    Handled.Step id ⟨.register name source, state, outcome, after⟩ := by
  rw [run_register] at ran
  rcases (state.registry id).register_cases name source with
    ⟨rfl, refused⟩ | ⟨old, known, same, done⟩ | ⟨module, kind, other, done⟩
  · rw [refused] at ran
    cases ran
    exact .refused
  · rw [done] at ran
    cases ran
    rw [setRegistry_registry]
    exact .again known same
  · rw [done] at ran
    cases ran
    exact .registered kind other

theorem step_of_get
    (ran : ((Request.get name).rule id).run evaluator settings state = (outcome, after)) :
    Handled.Step id ⟨.get name, state, outcome, after⟩ := by
  simp only [Request.rule, registeredModule, Rule.run_bind, Rule.inspect, Rule.run] at ran
  cases found : (state.registry id).modules.find? name with
  | none =>
      rw [found] at ran
      cases ran
      exact .unknown found
  | some module =>
      rw [found] at ran
      cases module with
      | ready scope =>
          cases ran
          exact .known found
      | pending factory =>
          simp only [Rule.run_bind, Rule.perform, Rule.run, Change.apply] at ran
          cases made : ((factory.recipe state.factoryRuns).rule name).run evaluator settings
              (state.record (.built factory.label)) with
          | mk result ended =>
              obtain ⟨registries, log⟩ := run_recipe made
              rw [made] at ran
              cases result with
              | error reason =>
                  cases ran
                  exact .failed found registries
              | ok scope =>
                  cases ran
                  have same : ended.registry id = state.registry id := by
                    simp only [State.registry, registries, State.record]
                  rw [same]
                  exact .built found registries ⟨rfl, rfl, log, _, _, _, made⟩

theorem step_of_run {request : Request}
    (ran : (request.rule id).run evaluator settings state = (outcome, after)) :
    Handled.Step id ⟨request, state, outcome, after⟩ := by
  cases request with
  | register name source => exact step_of_register ran
  | get name => exact step_of_get ran

/-! ### What one request keeps -/

theorem registry_of_registries {before ended : State} (same : ended.registries = before.registries)
    (id : RegistryId) : ended.registry id = before.registry id := by
  simp only [State.registry, same]

theorem registry_setRegistry_of_registries {before ended : State}
    (same : ended.registries = before.registries) (inside : id < before.registries.size)
    (registry : Registry) : (ended.setRegistry id registry).registry id = registry :=
  State.registry_setRegistry_self ended registry (by rwa [same])

theorem identical_self {source : Source} {module : Module} (kind : source.module? = some module) :
    source.identical source = true := by
  cases source with
  | invalid => cases kind
  | scope made => exact beq_self_eq_true made
  | factory made => exact beq_self_eq_true made.mark

namespace Handled.Step

variable {handled : Handled} {scope : ScopeId}

theorem size (step : handled.Step id) :
    handled.after.registries.size = handled.before.registries.size := by
  cases step with
  | registered kind other => exact State.size_setRegistry ..
  | built found registries builds =>
      exact (State.size_setRegistry ..).trans (congrArg Array.size registries)
  | failed found registries => exact congrArg Array.size registries
  | _ => rfl

/-- A name that gets a source gets a module, and one that gets a module had a source. -/
theorem names (step : handled.Step id) (inside : id < handled.before.registries.size)
    (same : (handled.before.registry id).modules.names =
      (handled.before.registry id).sources.names) :
    (handled.after.registry id).modules.names = (handled.after.registry id).sources.names := by
  cases step with
  | @registered name source module state kind other =>
      have both : (state.registry id).modules.has name = (state.registry id).sources.has name := by
        rw [Bool.eq_iff_iff, Table.has_iff_mem_names, Table.has_iff_mem_names, same]
      simp only [State.registry_setRegistry_self state _ inside, Table.names_insert, both, same]
  | @built name factory scope state ended found registries builds =>
      have present : (state.registry id).modules.has name = true := by simp [Table.has, found]
      simp only [registry_setRegistry_of_registries registries inside, settle, Table.names_insert,
        present, if_true]
      exact same
  | failed found registries => simpa only [registry_of_registries registries id] using same
  | _ => exact same

theorem sources (step : handled.Step id) (inside : id < handled.before.registries.size)
    (name : String) :
    (handled.after.registry id).sources.find? name =
      nextSource name ((handled.before.registry id).sources.find? name) handled := by
  cases step with
  | @again other source old state known same =>
      simp only [nextSource]
      split
      · rename_i fresh
        rw [← fresh.1, known] at fresh
        simp [same] at fresh
      · rfl
  | @registered other source module state kind fresh =>
      simp only [State.registry_setRegistry_self state _ inside, nextSource]
      by_cases here : other = name
      · subst here
        simp [fresh]
      · simp [here, Table.find?_insert_of_ne _ _ (Ne.symm here)]
  | @built other factory scope state ended found registries builds =>
      simp only [registry_setRegistry_of_registries registries inside, nextSource, settle]
  | failed found registries => simp only [registry_of_registries registries id, nextSource]
  | _ => rfl

/-- A scope that a name stands for remains, unless the name gets another source. -/
theorem ready (step : handled.Step id) (inside : id < handled.before.registries.size)
    (keeps : handled.KeepsSource id name)
    (known : (handled.before.registry id).modules.find? name = some (.ready scope)) :
    (handled.after.registry id).modules.find? name = some (.ready scope) := by
  cases step with
  | @registered other source module state kind fresh =>
      simp only [KeepsSource, State.registry_setRegistry_self state _ inside] at keeps known ⊢
      by_cases here : other = name
      · subst here
        rw [Table.find?_insert_self] at keeps
        rw [← keeps] at fresh
        simp [identical_self kind] at fresh
      · rwa [Table.find?_insert_of_ne _ _ (Ne.symm here)]
  | @built other factory made state ended found registries builds =>
      simp only [registry_setRegistry_of_registries registries inside, settle] at known ⊢
      by_cases here : other = name
      · subst here
        rw [known] at found
        cases found
      · rwa [Table.find?_insert_of_ne _ _ (Ne.symm here)]
  | failed found registries => simpa only [registry_of_registries registries id] using known
  | _ => exact known

/-- The scope that is the answer to a request is what the name stands for after it. -/
theorem ready_of_get (step : handled.Step id) (inside : id < handled.before.registries.size)
    (request : handled.request = .get name) (answer : handled.outcome = .ok (some scope)) :
    (handled.after.registry id).modules.find? name = some (.ready scope) := by
  cases step with
  | known found =>
      cases request
      cases answer
      exact found
  | @built other factory made state ended found registries builds =>
      cases request
      cases answer
      simp only [registry_setRegistry_of_registries registries inside, settle]
      exact Table.find?_insert_self ..
  | refused | again _ _ | registered _ _ => cases request
  | unknown _ | failed _ _ => cases answer

/-- Asking for a name that stands for a scope gives that scope and changes nothing. -/
theorem get_of_ready (step : handled.Step id) (request : handled.request = .get name)
    (known : (handled.before.registry id).modules.find? name = some (.ready scope)) :
    handled.outcome = .ok (some scope) ∧ handled.after = handled.before := by
  cases step with
  | refused | again _ _ | registered _ _ => cases request
  | known found =>
      cases request
      cases known.symm.trans found
      exact ⟨rfl, rfl⟩
  | unknown found | built found _ _ | failed found _ =>
      cases request
      cases known.symm.trans found

theorem after_again (step : handled.Step id) {source old : Source}
    (request : handled.request = .register name source)
    (known : (handled.before.registry id).sources.find? name = some old)
    (same : source.identical old = true) : handled.after = handled.before := by
  cases step with
  | registered kind other =>
      cases request
      rw [known] at other
      simp [same] at other
  | built _ _ _ | failed _ _ => cases request
  | _ => rfl

theorem after_error (step : handled.Step id) {reason : Interrupt}
    (early : handled.outcome = .error reason) :
    handled.after.registry id = handled.before.registry id := by
  cases step with
  | refused => rfl
  | failed found registries => exact registry_of_registries registries id
  | _ => cases early

end Handled.Step

/-! ### What all requests keep -/

/-- One of the elements of a list that got a last one is this last one, or it was there before. -/
theorem split_concat {α : Type} {xs front back : List α} {last x : α}
    (whole : xs ++ [last] = front ++ x :: back) :
    (xs = front ∧ x = last ∧ back = []) ∨
      ∃ rest, back = rest ++ [last] ∧ xs = front ++ x :: rest := by
  rcases List.eq_nil_or_concat back with rfl | ⟨rest, y, rfl⟩
  · obtain ⟨same, single⟩ := List.append_inj' whole rfl
    exact .inl ⟨same, (List.singleton_inj.mp single).symm, rfl⟩
  · rw [List.concat_eq_append, ← List.cons_append, ← List.append_assoc] at whole
    obtain ⟨same, single⟩ := List.append_inj' whole rfl
    exact .inr ⟨rest, by rw [List.concat_eq_append, List.singleton_inj.mp single], same⟩

/-- For one of the requests, the factory of the name returned the scope, and since then the name has
had the same source. -/
def HasBuilt (id : RegistryId) (name : String) (factory : Factory) (scope : ScopeId)
    (history : List Handled) : Prop :=
  ∃ earlier handled later, history = earlier ++ handled :: later ∧
    handled.Builds name factory scope ∧ ∀ h ∈ handled :: later, h.KeepsSource id name

theorem HasBuilt.concat {factory : Factory} {scope : ScopeId} {history : List Handled}
    (built : HasBuilt id name factory scope history) {handled : Handled}
    (keeps : handled.KeepsSource id name) :
    HasBuilt id name factory scope (history ++ [handled]) := by
  obtain ⟨earlier, first, later, rfl, builds, kept⟩ := built
  refine ⟨earlier, first, later ++ [handled], by simp, builds, ?_⟩
  rw [← List.cons_append]
  exact List.forall_mem_append.mpr ⟨kept, List.forall_mem_singleton.mpr keeps⟩

/-- What a name stands for comes from its source: it is what the source stands for at first, or the
scope that this source, a factory, has returned. -/
def Accounts (id : RegistryId) (history : List Handled) (state : State) (name : String) : Prop :=
  ∀ module, (state.registry id).modules.find? name = some module →
    ∃ source, (state.registry id).sources.find? name = some source ∧
      (source.module? = some module ∨ ∃ factory scope, source = .factory factory ∧
        module = .ready scope ∧ HasBuilt id name factory scope history)

/-- If a request changes neither the source nor the module of a name, what that stands for is still
accounted for. -/
theorem Accounts.same {history : List Handled} {handled : Handled}
    (accounts : Accounts id history handled.before name)
    (modules : (handled.after.registry id).modules.find? name =
      (handled.before.registry id).modules.find? name)
    (keeps : handled.KeepsSource id name) :
    Accounts id (history ++ [handled]) handled.after name := by
  intro module found
  rw [modules] at found
  obtain ⟨source, known, from_⟩ := accounts module found
  refine ⟨source, keeps.trans known, from_.imp_right ?_⟩
  rintro ⟨factory, scope, kind, ready, built⟩
  exact ⟨factory, scope, kind, ready, built.concat keeps⟩

theorem Handled.Step.accounts {handled : Handled} {history : List Handled}
    (step : handled.Step id) (inside : id < handled.before.registries.size)
    (accounts : Accounts id history handled.before name) :
    Accounts id (history ++ [handled]) handled.after name := by
  cases step with
  | @registered other source module state kind fresh =>
      have after := State.registry_setRegistry_self state { state.registry id with
        sources := (state.registry id).sources.insert other source
        modules := (state.registry id).modules.insert other module } inside
      by_cases here : other = name
      · subst here
        intro found stands
        rw [after, Table.find?_insert_self] at stands
        cases stands
        exact ⟨source, by rw [after, Table.find?_insert_self], .inl kind⟩
      · refine accounts.same ?_ ?_
        · rw [after, Table.find?_insert_of_ne _ _ (Ne.symm here)]
        · rw [KeepsSource, after, Table.find?_insert_of_ne _ _ (Ne.symm here)]
  | @built other factory scope state ended found registries builds =>
      have after := registry_setRegistry_of_registries registries inside
        ((state.registry id).settle other scope)
      have keeps (name : String) : KeepsSource id name ⟨.get other, state, .ok (some scope),
          ended.setRegistry id ((state.registry id).settle other scope)⟩ := by
        rw [KeepsSource, after, settle]
      by_cases here : other = name
      · subst here
        intro stands ready
        rw [after, settle, Table.find?_insert_self] at ready
        cases ready
        obtain ⟨source, known, from_⟩ := accounts _ found
        refine ⟨source, (keeps other).trans known, .inr ⟨factory, scope, ?_, rfl, ?_⟩⟩
        · rcases from_ with kind | ⟨_, _, _, ready, _⟩
          · cases source <;> cases kind
            rfl
          · cases ready
        · exact ⟨history, _, [], rfl, builds, by simpa using keeps other⟩
      · refine accounts.same ?_ (keeps name)
        rw [after, settle, Table.find?_insert_of_ne _ _ (Ne.symm here)]
  | failed found registries =>
      have after := registry_of_registries registries id
      exact accounts.same (by rw [after]) (by rw [KeepsSource, after])
  | _ => exact accounts.same rfl rfl

namespace Serves

variable {start finish : State} {history earlier middle later : List Handled}
variable {first handled : Handled} {scope : ScopeId}

theorem ask (serves : Serves id start history state) (request : Request) (evaluator : Evaluator)
    (settings : Settings) :
    Serves id start (history ++ [⟨request, state,
        ((request.rule id).run evaluator settings state).1,
        ((request.rule id).run evaluator settings state).2⟩])
      ((request.rule id).run evaluator settings state).2 :=
  serves.request rfl

theorem inside (serves : Serves id start history finish) (inside : id < start.registries.size) :
    id < finish.registries.size := by
  induction serves with
  | start => exact inside
  | request _ ran ih => exact (step_of_run ran).size ▸ ih
  | between _ _ _ size ih => exact Nat.lt_of_lt_of_le ih size

/-- The requests up to one of them lead to the state in which that was made. -/
theorem split (serves : Serves id start history finish)
    (whole : history = earlier ++ handled :: later) :
    Serves id start earlier handled.before ∧ handled.Step id := by
  induction serves generalizing later with
  | start => simp at whole
  | request serves ran ih =>
      rcases split_concat whole with ⟨rfl, rfl, -⟩ | ⟨rest, -, shorter⟩
      · exact ⟨serves, step_of_run ran⟩
      · exact ih shorter
  | between _ _ _ _ ih => exact ih whole

theorem step (serves : Serves id start history finish) (mem : handled ∈ history) :
    handled.Step id := by
  obtain ⟨earlier, later, whole⟩ := List.append_of_mem mem
  exact (serves.split whole).2

/-- A scope that was the answer for a name is what the name stands for as long as its source stays
the same. -/
theorem ready (serves : Serves id start history finish) (inside : id < start.registries.size)
    (whole : history = earlier ++ first :: middle) (request : first.request = .get name)
    (answer : first.outcome = .ok (some scope)) (keeps : ∀ h ∈ middle, h.KeepsSource id name) :
    (finish.registry id).modules.find? name = some (.ready scope) := by
  induction serves generalizing middle with
  | start => simp at whole
  | request serves ran ih =>
      have inside' := serves.inside inside
      rcases split_concat whole with ⟨-, rfl, -⟩ | ⟨rest, rfl, shorter⟩
      · exact (step_of_run ran).ready_of_get inside' request answer
      · obtain ⟨before, last⟩ := List.forall_mem_append.mp keeps
        exact (step_of_run ran).ready inside' (last _ (List.mem_singleton_self _))
          (ih shorter before)
  | between _ modules _ _ ih => rw [modules, ih whole keeps]

/-- The names with a module are those with a source, in the same order. -/
theorem names (serves : Serves id start history finish) (inside : id < start.registries.size)
    (modules : (start.registry id).modules = []) (sources : (start.registry id).sources = []) :
    (finish.registry id).modules.names = (finish.registry id).sources.names := by
  induction serves with
  | start => rw [modules, sources]; rfl
  | request serves ran ih => exact (step_of_run ran).names (serves.inside inside) ih
  | between _ modules' sources' _ ih => rw [modules', sources', ih]

/-- The source of a name is the last one that was registered under it. -/
theorem sources (serves : Serves id start history finish) (inside : id < start.registries.size)
    (none : (start.registry id).sources = []) (name : String) :
    (finish.registry id).sources.find? name = Handled.lastSource name history := by
  induction serves with
  | start => rw [none]; rfl
  | request serves ran ih =>
      rw [(step_of_run ran).sources (serves.inside inside) name, ih, Handled.lastSource,
        Handled.lastSource, List.foldl_append]
      rfl
  | between _ _ sources' _ ih => rw [sources', ih]

theorem accounts (serves : Serves id start history finish) (inside : id < start.registries.size)
    (none : (start.registry id).modules = []) (name : String) :
    Accounts id history finish name := by
  induction serves with
  | start =>
      intro module found
      rw [none] at found
      cases found
  | request serves ran ih => exact (step_of_run ran).accounts (serves.inside inside) ih
  | between _ modules' sources' _ ih => simpa only [Accounts, modules', sources'] using ih

/-- Once a scope was the answer for a name, it is the answer for as long as the source stays the
same, and nothing is done for it. -/
theorem answers (serves : Serves id start history finish) (inside : id < start.registries.size)
    {second : Handled} (whole : history = earlier ++ first :: (middle ++ second :: later))
    (keeps : ∀ h ∈ middle, h.KeepsSource id name) (request : first.request = .get name)
    (answer : first.outcome = .ok (some scope)) (again : second.request = .get name) :
    second.outcome = .ok (some scope) ∧ second.after = second.before := by
  have whole' : history = (earlier ++ first :: middle) ++ second :: later := by simpa using whole
  obtain ⟨before, step⟩ := serves.split whole'
  exact step.get_of_ready again (before.ready inside rfl request answer keeps)

end Serves

/-! ### Histories -/

/-- What holds of a registry after requests that it has dealt with from the beginning. -/
structure Consistent (id : RegistryId) (history : List Handled) (finish : State) : Prop where
  /-- The names with a module are those with a source, in the same order. -/
  names : (finish.registry id).modules.names = (finish.registry id).sources.names
  sources : ∀ name, (finish.registry id).sources.find? name = Handled.lastSource name history
  modules : ∀ name, Accounts id history finish name
  /-- While a name keeps its source, all answers after the first scope are that scope, and nothing
  is done for them. -/
  answers : ∀ {name earlier first middle second later scope},
    history = earlier ++ first :: (middle ++ second :: later) →
    (∀ h ∈ middle, h.KeepsSource id name) → first.request = .get name →
    first.outcome = .ok (some scope) → second.request = .get name →
    second.outcome = .ok (some scope) ∧ second.after = second.before
  /-- While a name keeps its source, a factory returns a scope for it only once. -/
  builds : ∀ {name earlier first middle second later},
    history = earlier ++ first :: (middle ++ second :: later) →
    (∀ h ∈ middle, h.KeepsSource id name) → (∃ factory scope, first.Builds name factory scope) →
    ¬ ∃ factory scope, second.Builds name factory scope
  /-- Registering what is the source of the name already changes nothing at all. -/
  again : ∀ handled ∈ history, ∀ name source old, handled.request = .register name source →
    (handled.before.registry id).sources.find? name = some old → source.identical old = true →
    handled.after = handled.before
  /-- A request that ends early leaves the registry as it is. -/
  failures : ∀ handled ∈ history, ∀ reason, handled.outcome = .error reason →
    handled.after.registry id = handled.before.registry id

/-- Whatever a registry is asked, from the beginning and in whatever order, it is consistent. -/
theorem serves_consistent {start finish : State} {history : List Handled}
    (inside : id < start.registries.size) (modules : (start.registry id).modules = [])
    (sources : (start.registry id).sources = []) (serves : Serves id start history finish) :
    Consistent id history finish := by
  refine ⟨serves.names inside modules sources, serves.sources inside sources,
    serves.accounts inside modules, serves.answers inside, ?_, ?_, ?_⟩
  · rintro name earlier first middle second later whole keeps ⟨factory, scope, once⟩
      ⟨factory', scope', twice⟩
    have same := (serves.answers inside whole keeps once.request once.outcome twice.request).2
    have ran := twice.ran
    rw [same] at ran
    exact List.cons_ne_self _ _ ran.symm
  · exact fun handled mem name source old request => (serves.step mem).after_again request
  · exact fun handled mem reason => (serves.step mem).after_error

/-- A factory that does not give a module the first time. The failure changes nothing, the second
request has the factory build the module, and neither registering the factory again nor asking
again builds another one. -/
theorem serves_consistent_retried :
    let source : Source := .factory
      ⟨0, "m", fun runs => if runs = 0 then .crash "not yet" else .scope (.mk [] [])⟩
    let settings : Settings := { stepLimit := 0, tracing := false, files := { origin := "" } }
    let ask (request : Request) (state : State) :=
      (request.rule 0).run (TreeScript.evaluate 0) settings state
    let start := (State.addRegistry {}).2
    let registered := ask (.register "m" source) start
    let failed := ask (.get "m") registered.2
    let built := ask (.get "m") failed.2
    let again := ask (.register "m" source) built.2
    let asked := ask (.get "m") again.2
    failed.2.registry 0 = registered.2.registry 0 ∧ built.1 = .ok (some 0) ∧
      again.2 = built.2 ∧ asked.1 = .ok (some 0) ∧ asked.2 = again.2 := by
  intro source settings ask start registered failed built again asked
  have serves : Serves 0 start
      [⟨.register "m" source, start, registered.1, registered.2⟩,
        ⟨.get "m", registered.2, failed.1, failed.2⟩, ⟨.get "m", failed.2, built.1, built.2⟩,
        ⟨.register "m" source, built.2, again.1, again.2⟩,
        ⟨.get "m", again.2, asked.1, asked.2⟩] asked.2 :=
    Serves.start.ask _ _ _ |>.ask _ _ _ |>.ask _ _ _ |>.ask _ _ _ |>.ask _ _ _
  have consistent := serves_consistent (by decide) rfl rfl serves
  have fails : failed.1.toOption = none := by decide +kernel
  have gives : built.1.toOption = some (some 0) := by decide +kernel
  have known : ((built.2.registry 0).sources.find? "m").any source.identical = true := by
    decide +kernel
  clear_value asked again built failed registered
  have built_eq : built.1 = .ok (some 0) := by
    cases outcome : built.1 <;> simp_all [Except.toOption]
  obtain ⟨old, find, same⟩ := Option.any_eq_true .. |>.mp known
  have kept : again.2 = built.2 :=
    consistent.again ⟨_, built.2, again.1, again.2⟩ (by simp) _ _ _ rfl find same
  refine ⟨?_, built_eq, kept, ?_⟩
  · cases failing : failed.1 with
    | ok => simp [failing, Except.toOption] at fails
    | error reason =>
        exact consistent.failures ⟨.get "m", _, _, failed.2⟩ (by simp) _ failing
  · exact consistent.answers (show _ = [_, _] ++ _ :: ([_] ++ _ :: []) from rfl)
      (by simp [Handled.KeepsSource, kept]) rfl built_eq rfl

end Registry

end TreeScript
