import TreeScript.Evaluation.Error

/-!
# Modules

A registry knows modules by name. A module is registered as a scope, or as a factory that builds
one when the module is first asked for; from then on the scope that was built is the module.
Registering the same thing again changes nothing. Besides, a registry keeps the scopes of the files
that were loaded and the places of those that are being loaded.
-/

namespace TreeScript

/-- What a function name of a scope to be built is bound to. -/
inductive Binding where
  | host (name : String) (procedure : Procedure)
  /-- A custom function with an empty scope of its own as its closure. -/
  | custom (body : Object)
  | inert (datum : Data)

/-- The content of a scope to be built. -/
inductive Blueprint where
  | mk (functions : List (String × Binding)) (children : List (String × Blueprint))

namespace Blueprint

def entry (heap : Heap) : Binding → Entry × Heap
  | .host name procedure => (.host name procedure, heap)
  | .custom body =>
      let (closure, heap) := heap.alloc {}
      (.custom closure body, heap)
  | .inert datum => (.inert datum, heap)

def entries (heap : Heap) : List (String × Binding) → Table Entry × Heap
  | [] => ([], heap)
  | (name, binding) :: rest =>
      let (entry, heap) := entry heap binding
      let (table, heap) := entries heap rest
      (Table.insert name entry [] ++ table, heap)

mutual

def build (heap : Heap) : Blueprint → ScopeId × Heap
  | mk functions children =>
      let (functions, heap) := entries heap functions
      let (children, heap) := buildAll heap children
      heap.alloc { functions, children }

def buildAll (heap : Heap) : List (String × Blueprint) → Table ScopeId × Heap
  | [] => ([], heap)
  | (name, blueprint) :: rest =>
      let (child, heap) := blueprint.build heap
      let (table, heap) := buildAll heap rest
      ((name, child) :: table, heap)

end

end Blueprint

/-- What a factory does when it runs. -/
inductive Recipe where
  | scope (blueprint : Blueprint)
  | existing (id : ScopeId)
  | other (kind : String)
  | crash (message : String)

/-- A factory of a module. The mark tells factories apart, the label says which one has run. What it
does may differ from one run to the next, so it depends on how many factories have run before. -/
structure Factory where
  mark : Nat
  label : String
  recipe : Nat → Recipe

/-- What is given to a registry as a module. -/
inductive Source where
  | scope (id : ScopeId)
  | factory (factory : Factory)
  | invalid

/-- The same source, not an equal one. -/
def Source.identical : Source → Source → Bool
  | scope a, scope b => a == b
  | factory a, factory b => a.mark == b.mark
  | _, _ => false

/-- What a name stands for: a scope, or a factory that has not run. -/
inductive Module where
  | ready (scope : ScopeId)
  | pending (factory : Factory)

/-- Modules by name, and modules by the place of their file. -/
structure Registry where
  modules : Table Module := []
  sources : Table Source := []
  loaded : List (Place × ScopeId) := []
  loading : List Place := []

namespace Registry

/-- Registers a source under a name, unless it is already the source of that name. -/
def register (registry : Registry) (name : String) (source : Source) :
    Except Failure Registry :=
  let enter (module : Module) : Registry :=
    if (registry.sources.find? name).any source.identical then registry
    else { registry with
      sources := registry.sources.insert name source
      modules := registry.modules.insert name module }
  match source with
  | .scope id => .ok (enter (.ready id))
  | .factory factory => .ok (enter (.pending factory))
  | .invalid => .error (.noModule name)

/-- The registry after the factory of a name has built its scope. -/
def settle (registry : Registry) (name : String) (scope : ScopeId) : Registry :=
  { registry with modules := registry.modules.insert name (.ready scope) }

/-- The names in the order of their first registration. -/
def names (registry : Registry) : List String := registry.modules.names

/-- The scope of the file at a place, if it was loaded. -/
def loaded? (registry : Registry) (place : Place) : Option ScopeId :=
  (registry.loaded.find? fun entry => entry.1 == place).map (·.2)

def isLoading (registry : Registry) (place : Place) : Bool := registry.loading.contains place

/-- Notes that the file at a place is being loaded. -/
def begin (registry : Registry) (place : Place) : Registry :=
  { registry with loading := place :: registry.loading }

/-- Notes that the file at a place is no longer being loaded. -/
def finish (registry : Registry) (place : Place) : Registry :=
  { registry with loading := registry.loading.filter (· != place) }

/-- Keeps the scope of the file at a place. -/
def keep (registry : Registry) (place : Place) (scope : ScopeId) : Registry :=
  { registry with loaded := registry.loaded ++ [(place, scope)] }

end Registry

end TreeScript
