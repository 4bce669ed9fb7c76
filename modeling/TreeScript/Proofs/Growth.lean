import TreeScript.Proofs.Moment

/-!
# Growth

Evaluation forgets nothing. A scope keeps its parent and every name that it bound, in the order of
their arrival; a runtime keeps everything but the calls that are active in it and the node that it
is at; a file stays loaded, and what could be seen stays in the log. This holds of each single
change, and so from every moment of an evaluation to every later one, whether it ends early or not.
-/

namespace TreeScript

/-- A scope has become another one: it has the same parent, and no name was lost or moved. -/
structure Scope.Grows (before after : Scope) : Prop where
  parent : after.parent = before.parent
  functions : before.functions.names <+: after.functions.names
  children : before.children.names <+: after.children.names

namespace Scope

protected theorem Grows.refl (scope : Scope) : scope.Grows scope :=
  ⟨rfl, List.prefix_rfl, List.prefix_rfl⟩

protected theorem Grows.trans {a b c : Scope} (first : a.Grows b) (second : b.Grows c) :
    a.Grows c :=
  ⟨second.parent.trans first.parent, first.functions.trans second.functions,
    first.children.trans second.children⟩

end Scope

/-- A heap has become another one: no scope was lost, and each has grown. -/
structure Heap.Grows (before after : Heap) : Prop where
  size : before.scopes.size ≤ after.scopes.size
  scope : ∀ id, id < before.scopes.size → (before.get id).Grows (after.get id)

namespace Heap

protected theorem Grows.refl (heap : Heap) : heap.Grows heap := ⟨Nat.le_refl _, fun _ _ => .refl _⟩

protected theorem Grows.trans {a b c : Heap} (first : a.Grows b) (second : b.Grows c) :
    a.Grows c :=
  ⟨Nat.le_trans first.size second.size, fun id h =>
    (first.scope id h).trans (second.scope id (Nat.lt_of_lt_of_le h first.size))⟩

theorem Grows.hasLocal {before after : Heap} (grows : before.Grows after) {id : ScopeId}
    (h : id < before.scopes.size) {name : String} (bound : before.hasLocal id name = true) :
    after.hasLocal id name = true :=
  Table.has_iff_mem_names.mpr
    ((grows.scope id h).functions.subset (Table.has_iff_mem_names.mp bound))

theorem grows_alloc (heap : Heap) (scope : Scope) : heap.Grows (heap.alloc scope).2 where
  size := by simp
  scope id h := by
    rw [get_alloc_of_lt heap scope h]
    exact .refl _

theorem grows_modify (heap : Heap) (id : ScopeId) {change : Scope → Scope}
    (h : ∀ scope : Scope, scope.Grows (change scope)) : heap.Grows (heap.modify id change) where
  size := Nat.le_of_eq (size_modify heap id change).symm
  scope other inside := by
    by_cases same : other = id
    · subst same
      rw [get_modify_self heap other change inside]
      exact h _
    · rw [get_modify_of_ne heap change same]
      exact .refl _

theorem grows_bind (heap : Heap) (id : ScopeId) (name : String) (entry : Entry) :
    heap.Grows (heap.bind id name entry) :=
  heap.grows_modify id fun _ => ⟨rfl, Table.names_prefix_insert .., List.prefix_rfl⟩

theorem grows_attach (heap : Heap) (id : ScopeId) (name : String) (child : ScopeId) :
    heap.Grows (heap.attach id name child) :=
  heap.grows_modify id fun _ => ⟨rfl, List.prefix_rfl, Table.names_prefix_insert ..⟩

theorem grows_setReturned (heap : Heap) (id : ScopeId) (returned : Object) :
    heap.Grows (heap.setReturned id returned) :=
  heap.grows_modify id fun _ => ⟨rfl, List.prefix_rfl, List.prefix_rfl⟩

end Heap

namespace Blueprint

theorem grows_entry (heap : Heap) (binding : Binding) : heap.Grows (entry heap binding).2 := by
  cases binding with
  | custom body => exact heap.grows_alloc {}
  | host name procedure => exact .refl heap
  | inert datum => exact .refl heap

theorem grows_entries (heap : Heap) (bindings : List (String × Binding)) :
    heap.Grows (entries heap bindings).2 := by
  induction bindings generalizing heap with
  | nil => exact .refl heap
  | cons binding rest ih => exact (grows_entry heap binding.2).trans (ih _)

mutual

theorem grows_build (heap : Heap) (blueprint : Blueprint) :
    heap.Grows (blueprint.build heap).2 := by
  obtain ⟨functions, children⟩ := blueprint
  have first := grows_entries heap functions
  have second := grows_buildAll (entries heap functions).2 children
  exact (first.trans second).trans (Heap.grows_alloc _ _)

theorem grows_buildAll (heap : Heap) (children : List (String × Blueprint)) :
    heap.Grows (buildAll heap children).2 := by
  match children with
  | [] => exact .refl heap
  | (_, blueprint) :: rest =>
      exact (grows_build heap blueprint).trans (grows_buildAll (blueprint.build heap).2 rest)

end

end Blueprint

/-- Only what a runtime is doing has changed. -/
def Runtime.Stays (before after : Runtime) : Prop :=
  after = { before with calls := after.calls, current := after.current }

namespace Runtime.Stays

protected theorem refl (runtime : Runtime) : runtime.Stays runtime := rfl

protected theorem trans {a b c : Runtime} (first : a.Stays b) (second : b.Stays c) : a.Stays c := by
  rw [Runtime.Stays, second, first]

variable {before after : Runtime}

theorem root (stays : before.Stays after) : after.root = before.root := by rw [stays]

theorem registry (stays : before.Stays after) : after.registry = before.registry := by rw [stays]

theorem directory (stays : before.Stays after) : after.directory = before.directory := by rw [stays]

theorem output (stays : before.Stays after) : after.output = before.output := by rw [stays]

theorem reports (stays : before.Stays after) : after.reports = before.reports := by rw [stays]

theorem journal (stays : before.Stays after) : after.journal = before.journal := by rw [stays]

end Runtime.Stays

/-- A state has become another one: nothing in it was lost. -/
structure State.Grows (before after : State) : Prop where
  heap : before.heap.Grows after.heap
  runtimes : before.runtimes.size ≤ after.runtimes.size
  runtime : ∀ id, id < before.runtimes.size → (before.runtime id).Stays (after.runtime id)
  registries : after.registries.size = before.registries.size
  loaded : ∀ id, (before.registry id).loaded <+: (after.registry id).loaded
  log : before.log <:+ after.log

namespace State

protected theorem Grows.refl (state : State) : state.Grows state :=
  ⟨.refl _, Nat.le_refl _, fun _ _ => .refl _, rfl, fun _ => List.prefix_rfl, List.suffix_rfl⟩

protected theorem Grows.trans {a b c : State} (first : a.Grows b) (second : b.Grows c) :
    a.Grows c where
  heap := first.heap.trans second.heap
  runtimes := Nat.le_trans first.runtimes second.runtimes
  runtime id h :=
    (first.runtime id h).trans (second.runtime id (Nat.lt_of_lt_of_le h first.runtimes))
  registries := second.registries.trans first.registries
  loaded id := (first.loaded id).trans (second.loaded id)
  log := first.log.trans second.log

theorem Grows.isBound {before after : State} (grows : before.Grows after) {slot : Slot}
    (h : slot.scope < before.heap.scopes.size) (bound : before.heap.isBound slot = true) :
    after.heap.isBound slot = true :=
  grows.heap.hasLocal h bound

theorem grows_modifyRuntime (state : State) (id : RuntimeId) {change : Runtime → Runtime}
    (h : ∀ runtime : Runtime, runtime.Stays (change runtime)) :
    state.Grows (state.modifyRuntime id change) where
  heap := .refl _
  runtimes := Nat.le_of_eq (size_modifyRuntime ..).symm
  runtime other inside := by
    by_cases same : other = id
    · subst same
      rw [runtime_modifyRuntime_self state change inside]
      exact h _
    · rw [runtime_modifyRuntime_of_ne state change same]
      exact .refl _
  registries := rfl
  loaded _ := List.prefix_rfl
  log := List.suffix_rfl

theorem grows_of_heap (state : State) {heap : Heap} (h : state.heap.Grows heap) :
    state.Grows { state with heap } :=
  { State.Grows.refl state with heap := h }

theorem grows_record (state : State) (event : Event) : state.Grows (state.record event) :=
  { State.Grows.refl state with log := List.suffix_cons .. }

theorem grows_setRegistry (state : State) (id : RegistryId) {registry : Registry}
    (h : (state.registry id).loaded <+: registry.loaded) :
    state.Grows (state.setRegistry id registry) :=
  { State.Grows.refl state with
    registries := size_setRegistry ..
    loaded := by
      intro other
      rcases registry_setRegistry_cases state id other registry with eq | ⟨rfl, eq⟩
      · simp only [eq, List.prefix_rfl]
      · rw [eq]
        exact h }

theorem grows_addRuntime (state : State) (registry : RegistryId) (directory : Option Place)
    (output : Option Output) (reports : Bool) :
    state.Grows (state.addRuntime registry directory output reports).2 :=
  { State.Grows.refl state with
    heap := state.heap.grows_alloc _
    runtimes := by simp [addRuntime, allocate]
    runtime := fun id h => by rw [runtime_addRuntime_of_lt _ _ _ _ _ h]; exact .refl _ }

theorem grows_print (state : State) (runtime : RuntimeId) (text : String) :
    state.Grows (state.print runtime text) := by
  unfold State.print
  split
  · exact state.grows_record _
  · exact state.grows_record _

theorem grows_reportError (state : State) (runtime : RuntimeId) (cause : Cause) :
    state.Grows (state.reportError runtime cause) := by
  unfold reportError
  split
  · exact state.grows_record _
  · exact .refl _

end State

theorem Registry.loaded_register {registry changed : Registry} {name : String} {source : Source}
    (h : registry.register name source = .ok changed) : changed.loaded = registry.loaded := by
  cases source with
  | invalid => cases h
  | scope id | factory factory =>
      simp only [register, Except.ok.injEq] at h
      subst h
      split <;> rfl

theorem Change.apply_grows (state : State) (c : Change) : state.Grows (c.apply state) := by
  cases c with
  | visit runtime node =>
      simp only [Change.apply]
      exact state.grows_modifyRuntime runtime fun _ => rfl
  | trace line => exact state.grows_record _
  | openScope parent => exact state.grows_of_heap (state.heap.grows_alloc _)
  | write slot closure body => exact state.grows_of_heap (state.heap.grows_bind ..)
  | setReturned scope returned => exact state.grows_of_heap (state.heap.grows_setReturned ..)
  | attach scope name child => exact state.grows_of_heap (state.heap.grows_attach ..)
  | print runtime text => exact state.grows_print runtime text
  | mark node => exact { State.Grows.refl state with }
  | addRuntime importer directory => exact state.grows_addRuntime ..
  | begin place => exact state.grows_record _
  | finish place => exact state.grows_record _
  | keep runtime place scope => exact state.grows_setRegistry _ (List.prefix_append ..)
  | register registry name source =>
      simp only [Change.apply]
      split
      · rename_i changed h
        refine state.grows_setRegistry registry ?_
        simp only [Registry.loaded_register h, List.prefix_rfl]
      · exact .refl state
  | runFactory label => exact state.grows_record _
  | build blueprint => exact state.grows_of_heap (blueprint.grows_build _)
  | settle registry name scope => exact state.grows_setRegistry registry List.prefix_rfl

theorem Frame.enter_grows (state : State) (frame : Frame) : state.Grows (frame.enter state) := by
  cases frame with
  | call runtime node =>
      simp only [Frame.enter]
      exact state.grows_modifyRuntime runtime fun _ => rfl
  | builtin invocation => exact .refl state
  | loading runtime place => exact state.grows_setRegistry _ List.prefix_rfl

theorem Frame.leave_grows (state : State) (frame : Frame) : state.Grows (frame.leave state) := by
  cases frame with
  | call runtime node =>
      simp only [Frame.leave]
      exact state.grows_modifyRuntime runtime fun _ => rfl
  | builtin invocation => exact .refl state
  | loading runtime place => exact state.grows_setRegistry _ List.prefix_rfl

theorem Moment.grows (moment : Moment) : moment.state.Grows moment.nextState := by
  obtain ⟨depth, frames, state, deed⟩ := moment
  cases deed with
  | visit runtime object context => exact .refl state
  | change c => exact c.apply_grows state
  | enter frame => exact frame.enter_grows state
  | leave frame => exact frame.leave_grows state
  | fail runtime cause node => exact state.grows_reportError runtime cause
  | halt reason => exact .refl state

/-- Nothing is lost from the beginning of an evaluation to any of its moments, nor from there to its
end. -/
theorem Linked.grows {frames frames' : List Frame} {state state' : State} {moments : List Moment}
    (linked : Linked frames state moments frames' state') :
    state.Grows state' ∧ ∀ m ∈ moments, state.Grows m.state ∧ m.nextState.Grows state' :=
  linked.related .refl .trans fun m _ => m.grows

/-- Evaluation forgets nothing, whether it ends early or not. -/
theorem Rule.run_grows {α : Type} (depth : Nat) (rule : Rule α) (settings : Settings)
    (state : State) :
    state.Grows (rule.run (TreeScript.evaluate depth) settings state).2 :=
  (rule.moments_linked settings depth [] state).grows.1

end TreeScript
