import TreeScript.Registry

/-!
# The state of evaluation

A runtime has a root scope with the builtins in it, a registry of modules, and the calls that are
active in it. Its output goes to the journal of a runtime or to a sink. All runtimes share one
state: the heap, the registries, and a log of everything that could be seen from outside. A journal
is the part of the log that was noted under its number.
-/

namespace TreeScript

abbrev RegistryId := Nat

abbrev JournalId := Nat

/-- Where printed text goes: to the journal that a runtime has at that time, or to a sink. -/
inductive Output where
  | journal (owner : RuntimeId)
  | sink
deriving Repr, DecidableEq

/-- The two streams of a journal. -/
inductive Stream where
  | output
  | error
deriving Repr, DecidableEq

/-- One entry of a journal. -/
structure Note where
  stream : Stream
  text : String
deriving Repr, DecidableEq

/-- What could be seen from outside. -/
inductive Event where
  | noted (journal : JournalId) (note : Note)
  | sunk (text : String)
  /-- A fatal error that was reported before it was raised. -/
  | reported (kind : ErrorKind) (message : String)
  | traced (line : String)
  | built (label : String)
  | began (place : Place)
  | finished (place : Place)
deriving Repr, DecidableEq

/-- One interpreter: the scope its programs run in, and what it is doing. -/
structure Runtime where
  root : ScopeId
  registry : RegistryId
  directory : Option Place
  output : Output
  reports : Bool
  journal : JournalId
  /-- The active calls, the innermost first. -/
  calls : List Node := []
  current : Node := .absent

/-- The error of a cause, seen from a runtime. It is about the given node, or else about the
innermost call, or else about the node last evaluated. -/
def Runtime.error (runtime : Runtime) (cause : Cause) (node : Node) : Error :=
  let node := match node with
    | .absent => runtime.calls.headD runtime.current
    | node => node
  ⟨cause, node, runtime.calls.reverse.filterMap Node.callName?⟩

/-- What does not change during an evaluation. -/
structure Settings where
  stepLimit : Int
  tracing : Bool
  files : Files
  /-- The room for laying out the call that a report shows. -/
  room : Nat := Layout.standardRoom

def Settings.defaultStepLimit : Int := 10000

/-- The step limit that a text gives; a text that is no integer gives none. -/
def Settings.readStepLimit (text : Option String) : Int :=
  match text.map fun text => Numeral.readInteger text.toList with
  | some (.ok limit) => limit
  | _ => defaultStepLimit

/-- The settings given by two texts of the environment, either of which may be missing. An empty
text asks for no trace. -/
def Settings.ofTexts (limit trace : Option String) (files : Files) : Settings :=
  { stepLimit := readStepLimit limit, tracing := (trace.getD "") != "", files }

/-- Everything that evaluation reads and changes. -/
structure State where
  heap : Heap := {}
  runtimes : Array Runtime := #[]
  registries : Array Registry := #[]
  journals : Nat := 0
  /-- What could be seen, the latest first. -/
  log : List Event := []
  nextMark : Nat := 0

namespace State

def runtime (state : State) (id : RuntimeId) : Runtime :=
  state.runtimes.getD id ⟨0, 0, none, .sink, false, 0, [], .absent⟩

def registry (state : State) (id : RegistryId) : Registry := state.registries.getD id {}

def registryOf (state : State) (id : RuntimeId) : Registry :=
  state.registry (state.runtime id).registry

def modifyRuntime (state : State) (id : RuntimeId) (change : Runtime → Runtime) : State :=
  { state with runtimes := state.runtimes.setIfInBounds id (change (state.runtime id)) }

def setRegistry (state : State) (id : RegistryId) (registry : Registry) : State :=
  { state with registries := state.registries.setIfInBounds id registry }

def modifyRegistry (state : State) (id : RuntimeId) (change : Registry → Registry) : State :=
  state.setRegistry (state.runtime id).registry (change (state.registryOf id))

def modifyHeap (state : State) (change : Heap → Heap) : State :=
  { state with heap := change state.heap }

def record (state : State) (event : Event) : State := { state with log := event :: state.log }

def allocate (state : State) (scope : Scope) : ScopeId × State :=
  let (id, heap) := state.heap.alloc scope
  (id, { state with heap })

/-- Gives the nodes and lists of a tree marks that nothing has. -/
def mark (state : State) (node : Node) : Node × State :=
  let (node, nextMark) := node.mark state.nextMark
  (node, { state with nextMark })

def addRegistry (state : State) : RegistryId × State :=
  (state.registries.size, { state with registries := state.registries.push {} })

def builtins (id : RuntimeId) : Table Entry :=
  Builtin.all.map fun builtin => (builtin.name, .builtin id builtin)

/-- Adds a runtime with a new root scope and an empty journal. Without an output it prints to its
own journal. -/
def addRuntime (state : State) (registry : RegistryId) (directory : Option Place)
    (output : Option Output) (reports : Bool) : RuntimeId × State :=
  let id := state.runtimes.size
  let (root, state) := state.allocate { functions := builtins id }
  let runtime : Runtime :=
    ⟨root, registry, directory, output.getD (.journal id), reports, state.journals, [], .absent⟩
  (id, { state with runtimes := state.runtimes.push runtime, journals := state.journals + 1 })

/-- Gives a runtime an empty journal in place of its present one. -/
def renewJournal (state : State) (id : RuntimeId) : State :=
  let state := state.modifyRuntime id fun runtime => { runtime with journal := state.journals }
  { state with journals := state.journals + 1 }

def note (state : State) (id : RuntimeId) (note : Note) : State :=
  state.record (.noted (state.runtime id).journal note)

def print (state : State) (id : RuntimeId) (text : String) : State :=
  match (state.runtime id).output with
  | .journal owner => state.note owner ⟨.output, text⟩
  | .sink => state.record (.sunk text)

def history (state : State) : List Event := state.log.reverse

def factoryRuns (state : State) : Nat :=
  state.log.countP fun
    | .built _ => true
    | _ => false

def journal (state : State) (id : JournalId) : List Note :=
  state.history.filterMap fun
    | .noted journal note => if journal = id then some note else none
    | _ => none

/-! ### What the operations do to each runtime and registry -/

@[simp] theorem size_modifyRuntime (state : State) (id : RuntimeId) (change : Runtime → Runtime) :
    (state.modifyRuntime id change).runtimes.size = state.runtimes.size := by
  simp [modifyRuntime]

theorem runtime_modifyRuntime_self (state : State) {id : RuntimeId} (change : Runtime → Runtime)
    (h : id < state.runtimes.size) :
    (state.modifyRuntime id change).runtime id = change (state.runtime id) := by
  simp [modifyRuntime, runtime, h]

theorem runtime_modifyRuntime_of_ne (state : State) {id other : RuntimeId}
    (change : Runtime → Runtime) (h : other ≠ id) :
    (state.modifyRuntime id change).runtime other = state.runtime other := by
  simp [modifyRuntime, runtime, Ne.symm h]

theorem modifyRuntime_of_size_le (state : State) {id : RuntimeId} (change : Runtime → Runtime)
    (h : state.runtimes.size ≤ id) : state.modifyRuntime id change = state := by
  simp [modifyRuntime, Array.setIfInBounds_eq_of_size_le h]

theorem runtime_modifyRuntime (state : State) (id other : RuntimeId)
    (change : Runtime → Runtime) :
    (state.modifyRuntime id change).runtime other =
      if other = id ∧ id < state.runtimes.size then change (state.runtime id)
      else state.runtime other := by
  split
  next both =>
    obtain ⟨rfl, inside⟩ := both
    exact runtime_modifyRuntime_self state change inside
  next neither =>
    by_cases same : other = id
    · have outside : state.runtimes.size ≤ id :=
        Nat.le_of_not_lt fun inside => neither ⟨same, inside⟩
      rw [modifyRuntime_of_size_le state change outside]
    · exact runtime_modifyRuntime_of_ne state change same

/-- What the change leaves alone is the same in every runtime. -/
theorem view_modifyRuntime {β : Type} (view : Runtime → β) (state : State) (id : RuntimeId)
    {change : Runtime → Runtime} (h : ∀ runtime, view (change runtime) = view runtime)
    (other : RuntimeId) :
    view ((state.modifyRuntime id change).runtime other) = view (state.runtime other) := by
  by_cases inside : id < state.runtimes.size
  · by_cases same : other = id
    · rw [same, runtime_modifyRuntime_self state change inside, h]
    · rw [runtime_modifyRuntime_of_ne state change same]
  · rw [modifyRuntime_of_size_le state change (Nat.le_of_not_lt inside)]

@[simp] theorem size_setRegistry (state : State) (id : RegistryId) (registry : Registry) :
    (state.setRegistry id registry).registries.size = state.registries.size := by
  simp [setRegistry]

theorem registry_setRegistry_self (state : State) {id : RegistryId} (registry : Registry)
    (h : id < state.registries.size) : (state.setRegistry id registry).registry id = registry := by
  simp [setRegistry, State.registry, h]

theorem registry_setRegistry_of_ne (state : State) {id other : RegistryId} (registry : Registry)
    (h : other ≠ id) : (state.setRegistry id registry).registry other = state.registry other := by
  simp [setRegistry, State.registry, Ne.symm h]

theorem setRegistry_of_size_le (state : State) {id : RegistryId} (registry : Registry)
    (h : state.registries.size ≤ id) : state.setRegistry id registry = state := by
  simp [setRegistry, Array.setIfInBounds_eq_of_size_le h]

/-- A registry is what it was, or it is the one that is set. -/
theorem registry_setRegistry_cases (state : State) (id other : RegistryId) (registry : Registry) :
    (state.setRegistry id registry).registry other = state.registry other ∨
      other = id ∧ (state.setRegistry id registry).registry other = registry := by
  by_cases same : other = id
  · subst same
    by_cases inside : other < state.registries.size
    · exact .inr ⟨rfl, registry_setRegistry_self state registry inside⟩
    · rw [setRegistry_of_size_le state registry (Nat.le_of_not_lt inside)]
      exact .inl rfl
  · exact .inl (registry_setRegistry_of_ne state registry same)

theorem registryOf_modifyRegistry (state : State) {id : RuntimeId} (change : Registry → Registry)
    (h : (state.runtime id).registry < state.registries.size) :
    (state.modifyRegistry id change).registryOf id = change (state.registryOf id) :=
  state.registry_setRegistry_self _ h

theorem runtime_addRuntime_self (state : State) (registry : RegistryId) (directory : Option Place)
    (output : Option Output) (reports : Bool) :
    (state.addRuntime registry directory output reports).2.runtime state.runtimes.size =
      ⟨state.heap.scopes.size, registry, directory, output.getD (.journal state.runtimes.size),
        reports, state.journals, [], .absent⟩ := by
  simp [addRuntime, runtime, allocate, Heap.alloc]

theorem runtime_addRuntime_of_lt (state : State) {id : RuntimeId} (registry : RegistryId)
    (directory : Option Place) (output : Option Output) (reports : Bool)
    (h : id < state.runtimes.size) :
    (state.addRuntime registry directory output reports).2.runtime id = state.runtime id := by
  simp [addRuntime, runtime, allocate, Array.getElem?_push, Nat.ne_of_lt h]

end State

end TreeScript
