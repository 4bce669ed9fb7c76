import TreeScript.Proofs.ModuleLoading
import TreeScript.Proofs.SessionConfinement

/-!
# What evaluation can reach

An evaluation starts from a scope, some parameters and the root of its runtime. What they lead to,
from scope to scope and through the registries, is all that it ever changes among the scopes that
were there, whether it ends early or not; and what it gives leads to such a scope or to a new one.
A file that is loaded starts from nothing but the registry. If that holds no other module, then
every scope that was there stays as it was, but for the child that the import adds to the root.
-/

namespace TreeScript

open Rule

/-- The registry holds a scope as a module of some name or as that of a loaded file. -/
def Registry.Holds (registry : Registry) (scope : ScopeId) : Prop :=
  (∃ name, (name, Module.ready scope) ∈ registry.modules) ∨
    ∃ place, (place, scope) ∈ registry.loaded

/-- The scopes that a runtime can reach from a context: the scope of the context, what its
parameters lead to, the root of the runtime, what the registry holds, and whatever any of these
refers to. If the root of another runtime is reached, then its builtins are, and they import through
the registry of that runtime, which is the same one unless a host made several. -/
inductive State.Reaches (state : State) (runtime : RuntimeId) (context : Context) : ScopeId → Prop
  | scope : Reaches state runtime context context.scope
  | parameter {x : Object} {id : ScopeId} :
      x ∈ context.parameters → x.target? = some id → Reaches state runtime context id
  | root : Reaches state runtime context (state.runtime runtime).root
  | held {importer : RuntimeId} {id : ScopeId} : importer < state.runtimes.size →
      Reaches state runtime context (state.runtime importer).root →
      (state.registryOf importer).Holds id → Reaches state runtime context id
  | refers {id other : ScopeId} : Reaches state runtime context id →
      (state.heap.get id).RefersTo other → Reaches state runtime context other

/-- Every scope of a heap is the same in another one. -/
def Heap.KeptIn (before after : Heap) : Prop :=
  ∀ id, id < before.scopes.size → after.get id = before.get id

/-- An import made a module a child of a scope, if it gave one, and of the scopes that were there
nothing else has changed. -/
def State.OnlyAttaches (state : State) (scope : ScopeId) (name : String)
    (outcome : Except Interrupt Object × State) : Prop :=
  match outcome.1 with
  | .ok x => ∃ module, x = .scope module ∧
      (state.heap.attach scope name module).KeptIn outcome.2.heap
  | .error _ => state.heap.KeptIn outcome.2.heap

/-- What a runtime can reach and everything that is new. -/
def State.reachable (state : State) (runtime : RuntimeId) (context : Context) : Realm where
  scopes id := state.Reaches runtime context id ∨ state.heap.scopes.size ≤ id
  registries id := ∃ importer, importer < state.runtimes.size ∧
    state.Reaches runtime context (state.runtime importer).root ∧
    (state.runtime importer).registry = id

/-- What is new, and one registry. -/
def State.beyond (state : State) (registry : RegistryId) : Realm where
  scopes id := state.heap.scopes.size ≤ id
  registries id := id = registry

variable {settings : Settings} {state : State} {runtime : RuntimeId} {context : Context}

/-! ### The two realms are closed -/

theorem State.Sound.reachable (sound : state.Sound false) (housed : state.Housed) :
    Confined (state.reachable runtime context) state state := by
  apply sound.confined housed
  · exact fun id young => .inr young
  · intro id old known other refers
    rcases known with reached | young
    · exact .inl (.refers reached refers)
    · exact absurd young (Nat.not_le_of_lt old)
  · intro id inside known
    rcases known with reached | young
    · exact ⟨id, inside, reached, rfl⟩
    · exact absurd young (Nat.not_le_of_lt (sound.root_lt id inside))
  · rintro _ ⟨importer, inside, reached, rfl⟩ entry mem
    exact .inl (.held inside reached (.inr ⟨entry.1, mem⟩))

theorem State.Sound.beyond (sound : state.Sound false) (housed : state.Housed)
    {registry : RegistryId} (none : (state.registry registry).loaded = []) :
    Confined (state.beyond registry) state state := by
  apply sound.confined housed
  · exact fun id young => young
  · exact fun id old young _ _ => absurd young (Nat.not_le_of_lt old)
  · exact fun id inside young => absurd young (Nat.not_le_of_lt (sound.root_lt id inside))
  · rintro _ rfl entry mem
    rw [none] at mem
    cases mem

/-! ### Imports -/

theorem Heap.KeptIn.attach {before after : Heap} (kept : before.KeptIn after) {id : ScopeId}
    (inside : id < before.scopes.size) (size : before.scopes.size ≤ after.scopes.size)
    (name : String) (child : ScopeId) :
    (before.attach id name child).KeptIn (after.attach id name child) := by
  intro other old
  rw [Heap.attach, Heap.size_modify] at old
  by_cases same : other = id
  · subst same
    rw [Heap.attach, Heap.attach, Heap.get_modify_self before other _ inside,
      Heap.get_modify_self after other _ (Nat.lt_of_lt_of_le inside size), kept other old]
  · rw [Heap.attach, Heap.attach, Heap.get_modify_of_ne before _ same,
      Heap.get_modify_of_ne after _ same, kept other old]

theorem Confined.keptIn {registry : RegistryId} {after : State}
    (confined : Confined (state.beyond registry) state after) :
    state.heap.KeptIn after.heap :=
  fun id old => confined.kept id (Nat.not_le_of_lt old)

/-- Finding the module of a file changes no scope that was there, if no other file is loaded. -/
theorem localModule_kept (sound : state.Sound false) (housed : state.Housed)
    (inside : runtime < state.runtimes.size) {name : String} {place : Place}
    (leads : state.LeadsTo settings.files runtime name place)
    (alone : ∀ entry ∈ (state.registryOf runtime).loaded, entry.1 = place) (depth : Nat) :
    state.heap.KeptIn ((localModule runtime name).run (evaluate depth) settings state).2.heap := by
  cases loaded : (state.registryOf runtime).loaded? place with
  | some module =>
      have run : (localModule runtime name).run (evaluate depth) settings state =
          (.ok module, state) := by
        simp only [localModule, moduleOfFile, inspect, bind_eq, Rule.bind, Rule.run, leads.found,
          loaded]
        rfl
      rw [run]
      exact fun _ _ => rfl
  | none =>
      have none : (state.registryOf runtime).loaded = [] := by
        refine List.eq_nil_iff_forall_not_mem.mpr fun entry mem => ?_
        have missing := List.find?_eq_none.mp (Option.map_eq_none_iff.mp loaded) entry mem
        exact missing (beq_iff_eq.mpr (alone entry mem))
      have confined := sound.beyond housed none
      have keeps : (localModule runtime name).Keeps _ settings [] state _ :=
        confined_localModule confined inside rfl name
      exact (keeps.confined confined depth).1.keptIn

theorem importModule_onlyAttaches (sound : state.Sound false) (housed : state.Housed)
    (inside : runtime < state.runtimes.size) {name : String} {place : Place}
    (leads : state.LeadsTo settings.files runtime name place)
    (alone : ∀ entry ∈ (state.registryOf runtime).loaded, entry.1 = place) (depth : Nat)
    (node : Node) :
    state.OnlyAttaches (state.runtime runtime).root name
      ((importModule runtime node name).run (evaluate depth) settings state) := by
  have kept := localModule_kept sound housed inside leads alone depth
  have grows := Rule.run_grows depth (localModule runtime name) settings state
  simp only [importModule, moduleOf, leads.isLocal, if_true, map_eq_pure_bind, run_bind]
  generalize (localModule runtime name).run (evaluate depth) settings state = outcome
    at kept grows ⊢
  rcases outcome with ⟨reason | module, middle⟩
  · exact kept
  · have root := (grows.runtime runtime inside).root
    have attached := kept.attach (sound.root_lt runtime inside) grows.heap.size name module
    rw [← root] at attached ⊢
    simp only [inspect, perform, trace, bind_eq, Rule.bind, Rule.run, pure_eq]
    split
    · exact ⟨module, rfl, attached⟩
    · exact ⟨module, rfl, attached⟩

/-- An import that is evaluated notes its node first, which changes no scope. -/
theorem evaluate_import_onlyAttaches (sound : state.Sound false) (housed : state.Housed)
    (inside : runtime < state.runtimes.size) {name : String} {place : Place}
    (leads : state.LeadsTo settings.files runtime name place)
    (alone : ∀ entry ∈ (state.registryOf runtime).loaded, entry.1 = place) (depth : Nat)
    (origin : Origin) :
    state.OnlyAttaches (state.runtime runtime).root name
      (evaluate depth runtime (.tree (.moduleImport name origin)) context settings state) := by
  cases depth with
  | zero => exact fun _ _ => rfl
  | succ depth =>
      let node : Node := .moduleImport name origin
      let noted := Change.apply state (.visit runtime node)
      have grows : state.Grows noted := Change.apply_grows state (.visit runtime node)
      have only : noted.OnlyAttaches (noted.runtime runtime).root name
          ((importModule runtime node name).run (evaluate depth) settings noted) := by
        refine importModule_onlyAttaches ?_ ?_ ?_ (leads.visit runtime node) ?_ depth node
        · exact Change.Safe.sound sound (c := .visit runtime node) trivial
        · exact housed.modifyRuntime runtime fun _ => rfl
        · exact Nat.lt_of_lt_of_le inside grows.runtimes
        · rw [state.registryOf_visit]
          exact alone
      rw [(grows.runtime runtime inside).root] at only
      exact only

/-- Evaluating a tree without a host changes no scope that was there and cannot be reached, whether
it ends early or not, and if it gives a scope or a memory, then that leads to a scope that can be
reached or is new. If the tree imports a file through a registry that holds no other module, then
no scope that was there changes at all, but the root of the importing runtime gets the module as a
child. -/
theorem evaluate_separates (settings : Settings) (depth : Nat) {runtime : RuntimeId}
    {context : Context} {state : State} (node : Node) (sound : state.Sound false)
    (housed : state.Housed) (inside : runtime < state.runtimes.size)
    (valid : context.Valid (state.extent false)) :
    let outcome := evaluate depth runtime (.ofNode node) context settings state
    (∀ id, id < state.heap.scopes.size → ¬ state.Reaches runtime context id →
      outcome.2.heap.get id = state.heap.get id) ∧
    (∀ x, outcome.1 = .ok x → ∀ id, x.target? = some id →
      state.Reaches runtime context id ∨ state.heap.scopes.size ≤ id) ∧
    ∀ name origin place, node = .moduleImport name origin →
      state.LeadsTo settings.files runtime name place →
      (∀ entry ∈ (state.registryOf runtime).loaded, entry.1 = place) →
      state.OnlyAttaches (state.runtime runtime).root name outcome := by
  intro outcome
  have reached : Confined (state.reachable runtime context) state state :=
    sound.reachable housed
  have parameters : ∀ x ∈ context.parameters, x.In (state.reachable runtime context) := by
    intro x mem
    exact ⟨(valid.parameters x mem).isNode, fun id found => .inl (.parameter mem found)⟩
  have active : Active (state.reachable runtime context) state state runtime context :=
    ⟨reached, inside, .inl .root, .inl .scope, parameters⟩
  obtain ⟨confined, given⟩ := evaluate_confined settings depth active (Object.node_or_in _ node)
  refine ⟨?_, ?_, ?_⟩
  · intro id old unreached
    exact confined.kept id fun known => known.elim unreached (Nat.not_le_of_lt old)
  · exact fun x result => (given x result).target
  · rintro name origin place rfl leads alone
    exact evaluate_import_onlyAttaches sound housed inside leads alone depth origin

/-- Two runtimes that share a registry. -/
def State.pair : State := (State.fresh.addRuntime 0 none none true).2

theorem Session.pair (hosted : Bool) : Session hosted State.pair :=
  (Session.fresh hosted).addRuntime 0 none none true (by decide)

theorem State.pair_registry (id : RegistryId) : State.pair.registry id = {} := by
  rcases id with _ | id <;> rfl

/-- From its own root, a runtime of the pair reaches nothing else. -/
theorem State.pair_reaches {id : ScopeId} (reached : State.pair.Reaches 0 { scope := 0 } id) :
    id = 0 := by
  have custom {name : String} {closure : ScopeId} {body : Object}
      (mem : (name, Entry.custom closure body) ∈ (State.pair.heap.get 0).functions) : False := by
    obtain ⟨builtin, -, eq⟩ := List.mem_map.mp mem
    cases eq
  induction reached with
  | scope => rfl
  | parameter mem => cases mem
  | root => rfl
  | @held importer id inside _ holds =>
      rw [State.registryOf, State.pair_registry] at holds
      rcases holds with ⟨name, mem⟩ | ⟨place, mem⟩
      · cases mem
      · cases mem
  | refers _ refers ih =>
      subst ih
      cases refers with
      | parent found => cases found
      | child mem => cases mem
      | closure mem => exact (custom mem).elim
      | body mem => exact (custom mem).elim
      | returned found => cases found

/-- Importing `lib.yaml` changes neither the root of the other runtime nor more than the children of
the root that gets the module, and the module is not the root of the other runtime. -/
theorem evaluate_separates_lib :
    let files : Files := .ofLines [("lib.yaml", ["type: NumberLiteral", "value: 1"])]
    let outcome := evaluate 4 0 (.ofNode (.moduleImport "./lib" {})) { scope := 0 } (.quiet files)
      State.pair
    outcome.2.heap.get 1 = State.pair.heap.get 1 ∧
      ∃ module, outcome.1 = .ok (.scope module) ∧ module ≠ 1 ∧
        (State.pair.heap.attach 0 "./lib" module).KeptIn outcome.2.heap := by
  intro files
  let node : Node := .moduleImport "./lib" {}
  let place : Place := ⟨.origin, ["lib.yaml"]⟩
  have session := Session.pair false
  have context : Context.Valid (State.pair.extent false) { scope := 0 } := ⟨by decide, by simp⟩
  have inside : 0 < State.pair.runtimes.size := by decide
  have leadsTo : State.LeadsTo files 0 "./lib" place State.pair := by
    refine ⟨by decide +kernel, ?_⟩
    have found : (files.moduleAt? (State.pair.directoryOf files 0) "./lib").toOption =
        some (some place) := by decide +kernel
    generalize files.moduleAt? (State.pair.directoryOf files 0) "./lib" = outcome at found ⊢
    cases outcome with
    | error fault => cases found
    | ok found' => exact congrArg Except.ok (Option.some.inj found)
  have alone : ∀ entry ∈ (State.pair.registryOf 0).loaded, entry.1 = place := by
    rw [State.registryOf, State.pair_registry]
    simp
  have separates := evaluate_separates (.quiet files) 4 node session.sound session.housed inside
    context
  have ends : (evaluate 4 0 (.ofNode node) { scope := 0 } (.quiet files) State.pair).1.toBool =
      true := by decide +kernel
  generalize evaluate 4 0 (.ofNode node) { scope := 0 } (.quiet files) State.pair = outcome
    at separates ends ⊢
  obtain ⟨kept, leads, only⟩ := separates
  obtain ⟨result, after⟩ := outcome
  cases result with
  | error reason => cases ends
  | ok x =>
      obtain ⟨module, rfl, attaches⟩ := only "./lib" {} place rfl leadsTo alone
      refine ⟨kept 1 (by decide) fun reached => ?_, module, rfl, ?_, attaches⟩
      · exact absurd (State.pair_reaches reached) (by decide)
      · rintro rfl
        rcases leads (.scope 1) rfl 1 rfl with reached | young
        · exact absurd (State.pair_reaches reached) (by decide)
        · exact absurd young (by decide)

end TreeScript
