import TreeScript.Evaluation.Error
import TreeScript.Evaluation.State

/-!
# The steps of an evaluation

An evaluation changes the state in a fixed number of ways, which are listed here, and it does part
of its work within frames: a call is active until it ends, a builtin is carried out for its call,
and a file is being loaded until its program ends. Whatever else an evaluation does, it only looks
at the state.
-/

namespace TreeScript

/-- What an evaluation takes from its surroundings. -/
structure Context where
  scope : ScopeId
  parameters : List Object := []
  /-- The yield subtree that the function around was given. -/
  yielded : Node := .absent
  /-- A block gives its scope instead of its returned value. -/
  returnScope : Bool := false

/-- A builtin with everything it works on. -/
structure Invocation where
  builtin : Builtin
  runtime : RuntimeId
  context : Context
  arguments : List Object
  /-- The yield subtree of the call, which is not yet evaluated. -/
  yielded : Node

/-- One change of the state. -/
inductive Change where
  /-- A node is about to be evaluated. -/
  | visit (runtime : RuntimeId) (node : Node)
  | trace (line : String)
  /-- A block gets a scope of its own. -/
  | openScope (parent : ScopeId)
  | write (slot : Slot) (closure : ScopeId) (body : Object)
  | setReturned (scope : ScopeId) (returned : Object)
  /-- A scope becomes a namespace of another. -/
  | attach (scope : ScopeId) (name : String) (child : ScopeId)
  | print (runtime : RuntimeId) (text : String)
  /-- A tree gets marks that nothing has. -/
  | mark (node : Node)
  /-- A module gets a runtime of its own, which prints and reports where its importer does. -/
  | addRuntime (importer : RuntimeId) (directory : Place)
  | begin (place : Place)
  | finish (place : Place)
  /-- The scope of a file becomes the module of its place. -/
  | keep (runtime : RuntimeId) (place : Place) (scope : ScopeId)
  | register (registry : RegistryId) (name : String) (source : Source)
  | runFactory (label : String)
  | build (blueprint : Blueprint)
  | settle (registry : RegistryId) (name : String) (scope : ScopeId)

def Change.apply (state : State) : Change → State
  | visit runtime node => state.modifyRuntime runtime fun r => { r with current := node }
  | trace line => state.record (.traced ("[DBG] " ++ line))
  | openScope parent => (state.allocate { parent := some parent }).2
  | write slot closure body =>
      state.modifyHeap (·.bind slot.scope slot.name (.custom closure body))
  | setReturned scope returned => state.modifyHeap (·.setReturned scope returned)
  | attach scope name child => state.modifyHeap (·.attach scope name child)
  | print runtime text => state.print runtime text
  | mark node => (state.mark node).2
  | addRuntime importer directory =>
      let found := state.runtime importer
      (state.addRuntime found.registry (some directory) (some found.output) found.reports).2
  | begin place => state.record (.began place)
  | finish place => state.record (.finished place)
  | keep runtime place scope => state.modifyRegistry runtime (·.keep place scope)
  | register registry name source =>
      match (state.registry registry).register name source with
      | .ok changed => state.setRegistry registry changed
      | .error _ => state
  | runFactory label => state.record (.built label)
  | build blueprint => state.modifyHeap fun heap => (blueprint.build heap).2
  | settle registry name scope =>
      state.setRegistry registry ((state.registry registry).settle name scope)

/-- The runtime that a module gets. It has a new root scope and imports from the directory. -/
theorem Change.runtime_addRuntime (state : State) (importer : RuntimeId) (directory : Place) :
    ((addRuntime importer directory).apply state).runtime state.runtimes.size =
      ⟨state.heap.scopes.size, (state.runtime importer).registry, some directory,
        (state.runtime importer).output, (state.runtime importer).reports, state.journals, [],
        .absent⟩ :=
  state.runtime_addRuntime_self ..

theorem Change.size_addRuntime (state : State) (importer : RuntimeId) (directory : Place) :
    ((addRuntime importer directory).apply state).runtimes.size = state.runtimes.size + 1 := by
  simp [apply, State.addRuntime, State.allocate]

/-- What a part of an evaluation is done for. -/
inductive Frame where
  | call (runtime : RuntimeId) (node : Node)
  | builtin (invocation : Invocation)
  | loading (runtime : RuntimeId) (place : Place)

namespace Frame

/-- The state at the beginning of a frame. A call becomes active in its runtime, and a file is noted
as being loaded. -/
def enter (state : State) : Frame → State
  | call runtime node => state.modifyRuntime runtime fun r => { r with calls := node :: r.calls }
  | builtin _ => state
  | loading runtime place => state.modifyRegistry runtime (·.begin place)

/-- The state at the end of a frame, however it ends. -/
def leave (state : State) : Frame → State
  | call runtime _ => state.modifyRuntime runtime fun r => { r with calls := r.calls.tail }
  | builtin _ => state
  | loading runtime place => state.modifyRegistry runtime (·.finish place)

end Frame

/-- The state in which a fatal error was reported, if its runtime reports errors. -/
def State.reportError (state : State) (runtime : RuntimeId) (cause : Cause) : State :=
  if (state.runtime runtime).reports then state.record (.reported cause.kind cause.message)
  else state

end TreeScript
