import TreeScript.Proofs.Growth

/-!
# Where trees come from

Evaluation makes no trees. Whatever tree is met was in the program, in a file, in a module of the
host or in the state before. So a property of trees that passes on to their parts holds of all trees
that a state knows, once it holds of those that are handed in: in bodies of functions, in what
blocks have returned, in registered modules and in the calls that are active.
-/

namespace TreeScript

/-- A property of trees that passes on to the parts that are evaluated and that does not depend on
marks. -/
structure Node.Hereditary (P : Node → Prop) : Prop where
  absent : P .absent
  call : ∀ {name parameters yielded origin}, P (.call name parameters yielded origin) →
    (∀ node ∈ parameters, P node) ∧ P yielded
  block : ∀ {body origin}, P (.block body origin) → ∀ node ∈ body, P node
  program : ∀ {body origin}, P (.program body origin) → ∀ node ∈ body, P node
  group : ∀ {body origin}, P (.group body origin) → ∀ node ∈ body, P node
  mark : ∀ {node} next, P node → P (node.mark next).1

mutual

/-- Every tree in the object has the property. -/
def Object.Carries (P : Node → Prop) : Object → Prop
  | .tree node => P node
  | .function _ entry => entry.Carries P
  | .absent | .value _ | .scope _ | .plain .. => True

def Entry.Carries (P : Node → Prop) : Entry → Prop
  | .host _ procedure => procedure.Carries P
  | .custom _ body => body.Carries P
  | .builtin .. | .inert _ => True

def Procedure.Carries (P : Node → Prop) : Procedure → Prop
  | .constant result => result.Carries P
  | .argumentCount | .argument _ | .currentScope | .yieldTree | .describeContext | .crash _
  | .refuse .. => True

end

def Binding.Carries (P : Node → Prop) : Binding → Prop
  | .host _ procedure => procedure.Carries P
  | .custom body => body.Carries P
  | .inert _ => True

mutual

def Blueprint.Carries (P : Node → Prop) : Blueprint → Prop
  | .mk functions children => (∀ binding ∈ functions, binding.2.Carries P) ∧ CarriesAll P children

def Blueprint.CarriesAll (P : Node → Prop) : List (String × Blueprint) → Prop
  | [] => True
  | (_, blueprint) :: rest => blueprint.Carries P ∧ CarriesAll P rest

end

def Recipe.Carries (P : Node → Prop) : Recipe → Prop
  | .scope blueprint => blueprint.Carries P
  | .existing _ | .other _ | .crash _ => True

def Source.Carries (P : Node → Prop) : Source → Prop
  | .factory made => ∀ runs, (made.recipe runs).Carries P
  | .scope _ | .invalid => True

def Module.Carries (P : Node → Prop) : Module → Prop
  | .pending made => ∀ runs, (made.recipe runs).Carries P
  | .ready _ => True

structure Context.Carries (P : Node → Prop) (context : Context) : Prop where
  parameters : ∀ x ∈ context.parameters, x.Carries P
  yielded : P context.yielded

structure Scope.Carries (P : Node → Prop) (scope : Scope) : Prop where
  functions : ∀ entry ∈ scope.functions, entry.2.Carries P
  returned : scope.returned.Carries P

structure Runtime.Carries (P : Node → Prop) (runtime : Runtime) : Prop where
  calls : ∀ node ∈ runtime.calls, P node
  current : P runtime.current

/-- Every tree that the state knows has the property. -/
structure State.Carries (P : Node → Prop) (state : State) : Prop where
  scope : ∀ id, (state.heap.get id).Carries P
  runtime : ∀ id, (state.runtime id).Carries P
  modules : ∀ id, ∀ entry ∈ (state.registry id).modules, entry.2.Carries P

/-- Every tree that a change adds has the property. -/
def Change.Carries (P : Node → Prop) : Change → Prop
  | visit _ node => P node
  | write _ _ body => body.Carries P
  | setReturned _ returned => returned.Carries P
  | register _ _ source => source.Carries P
  | build blueprint => blueprint.Carries P
  | trace _ | openScope _ | attach .. | print .. | mark _ | addRuntime .. | begin _ | finish _
  | keep .. | runFactory _ | settle .. => True

structure Invocation.Carries (P : Node → Prop) (invocation : Invocation) : Prop where
  context : invocation.context.Carries P
  arguments : ∀ x ∈ invocation.arguments, x.Carries P
  yielded : P invocation.yielded

def Frame.Carries (P : Node → Prop) : Frame → Prop
  | call _ node => P node
  | builtin invocation => invocation.Carries P
  | loading .. => True

/-- The tree that an error is about has the property. -/
def Interrupt.Carries (P : Node → Prop) : Interrupt → Prop
  | .error fatal => P fatal.node
  | .failure _ | .tooDeep => True

variable {P : Node → Prop} {state : State}

/-! ### Objects and tables -/

theorem Object.carries_ofNode {node : Node} (holds : P node) : (Object.ofNode node).Carries P := by
  cases node with
  | absent => trivial
  | _ => exact holds

theorem Object.carries_getD {objects : List Object} (holds : ∀ x ∈ objects, x.Carries P) (i : Nat) :
    (objects.getD i .absent).Carries P :=
  Builtin.getD_of_forall (P := fun x => x.Carries P) trivial holds i

/-- What is found in a table is in it. -/
theorem Scope.Carries.find {scope : Scope} (carries : scope.Carries P) {name : String}
    {entry : Entry} (found : scope.functions.find? name = some entry) : entry.Carries P :=
  carries.functions _ (Table.mem_of_find? found)

/-- What a name refers to carries what the state does. -/
theorem State.Carries.resolve (carries : state.Carries P) {scope : ScopeId} {name : String}
    {entry : Entry} (found : state.heap.resolve scope name = .ok entry) : entry.Carries P := by
  obtain ⟨owner, key, known⟩ := Heap.exists_find_of_resolve found
  exact (carries.scope owner).find known

/-! ### The operations on a state -/

namespace State.Carries

/-- Only the log and the numbers to be given next are free to differ. -/
theorem same (carries : state.Carries P) {after : State} (heap : after.heap = state.heap)
    (runtimes : after.runtimes = state.runtimes)
    (registries : after.registries = state.registries) : after.Carries P := by
  refine ⟨fun id => ?_, fun id => ?_, fun id => ?_⟩
  · rw [heap]
    exact carries.scope id
  · rw [State.runtime, runtimes]
    exact carries.runtime id
  · rw [State.registry, registries]
    exact carries.modules id

theorem record (carries : state.Carries P) (event : Event) : (state.record event).Carries P :=
  carries.same rfl rfl rfl

theorem modifyScope (carries : state.Carries P) (id : ScopeId) {change : Scope → Scope}
    (h : ∀ scope : Scope, scope.Carries P → (change scope).Carries P) :
    (state.modifyHeap (·.modify id change)).Carries P := by
  refine ⟨fun other => ?_, carries.runtime, carries.modules⟩
  change ((state.heap.modify id change).get other).Carries P
  rcases Nat.lt_or_ge other state.heap.scopes.size with inside | outside
  · by_cases same : other = id
    · subst same
      rw [Heap.get_modify_self state.heap other change inside]
      exact h _ (carries.scope other)
    · rw [Heap.get_modify_of_ne state.heap change same]
      exact carries.scope other
  · rw [Heap.get_of_size_le _ (by simpa using outside)]
    exact ⟨by simp, trivial⟩

theorem allocate (carries : state.Carries P) {scope : Scope} (new : scope.Carries P) :
    (state.allocate scope).2.Carries P := by
  refine ⟨fun id => ?_, carries.runtime, carries.modules⟩
  change ((state.heap.alloc scope).2.get id).Carries P
  rw [Heap.get_alloc]
  split
  · exact new
  · exact carries.scope id

theorem modifyRuntime (carries : state.Carries P) (id : RuntimeId) {change : Runtime → Runtime}
    (h : ∀ runtime : Runtime, runtime.Carries P → (change runtime).Carries P) :
    (state.modifyRuntime id change).Carries P := by
  refine ⟨carries.scope, fun other => ?_, carries.modules⟩
  rcases Nat.lt_or_ge id state.runtimes.size with inside | outside
  · by_cases same : other = id
    · subst same
      rw [state.runtime_modifyRuntime_self change inside]
      exact h _ (carries.runtime other)
    · rw [state.runtime_modifyRuntime_of_ne change same]
      exact carries.runtime other
  · rw [state.modifyRuntime_of_size_le change outside]
    exact carries.runtime other

theorem setRegistry (carries : state.Carries P) (id : RegistryId) {registry : Registry}
    (new : ∀ entry ∈ registry.modules, entry.2.Carries P) :
    (state.setRegistry id registry).Carries P := by
  refine ⟨carries.scope, carries.runtime, fun other entry mem => ?_⟩
  rcases state.registry_setRegistry_cases id other registry with eq | ⟨-, eq⟩ <;> rw [eq] at mem
  · exact carries.modules other entry mem
  · exact new entry mem

theorem addRuntime (hereditary : Node.Hereditary P) (carries : state.Carries P)
    (registry : RegistryId) (directory : Option Place) (output : Option Output) (reports : Bool) :
    (state.addRuntime registry directory output reports).2.Carries P := by
  have root : Scope.Carries P { functions := State.builtins state.runtimes.size } := by
    refine ⟨fun entry mem => ?_, trivial⟩
    obtain ⟨builtin, -, rfl⟩ := List.mem_map.mp mem
    trivial
  have allocated := carries.allocate root
  refine ⟨allocated.scope, fun id => ?_, carries.modules⟩
  rcases Nat.lt_trichotomy id state.runtimes.size with old | rfl | beyond
  · rw [state.runtime_addRuntime_of_lt registry directory output reports old]
    exact carries.runtime id
  · rw [state.runtime_addRuntime_self]
    exact ⟨by simp, hereditary.absent⟩
  · have outside : (state.addRuntime registry directory output reports).2.runtimes.size ≤ id := by
      simp only [State.addRuntime, State.allocate, Array.size_push]
      omega
    rw [State.runtime, Array.getD_eq_getD_getElem?, Array.getElem?_eq_none outside]
    exact ⟨by simp, hereditary.absent⟩

theorem reportError (carries : state.Carries P) (runtime : RuntimeId) (cause : Cause) :
    (state.reportError runtime cause).Carries P := by
  unfold State.reportError
  split
  · exact carries.record _
  · exact carries

/-- The error that a runtime tells is about the given tree or about one that the state knows. -/
theorem error (carries : state.Carries P) (runtime : RuntimeId) (cause : Cause) {node : Node}
    (holds : P node) : P ((state.runtime runtime).error cause node).node := by
  have known := carries.runtime runtime
  unfold Runtime.error
  cases node with
  | absent =>
      cases calls : (state.runtime runtime).calls with
      | nil => simpa [calls] using known.current
      | cons call rest =>
          have active := known.calls call (calls ▸ List.mem_cons_self ..)
          simpa [calls] using active
  | _ => exact holds

end State.Carries

/-! ### Modules of the host -/

namespace Blueprint

/-- A heap in which every scope carries the property. -/
abbrev Clean (P : Node → Prop) (heap : Heap) : Prop := ∀ id, (heap.get id).Carries P

theorem clean_alloc {heap : Heap} (clean : Clean P heap) {scope : Scope} (new : scope.Carries P) :
    Clean P (heap.alloc scope).2 := by
  intro id
  rw [Heap.get_alloc]
  split
  · exact new
  · exact clean id

theorem carries_entry {heap : Heap} (clean : Clean P heap) {binding : Binding}
    (carries : binding.Carries P) :
    (entry heap binding).1.Carries P ∧ Clean P (entry heap binding).2 := by
  cases binding with
  | host name procedure => exact ⟨carries, clean⟩
  | custom body => exact ⟨carries, clean_alloc clean ⟨by simp, trivial⟩⟩
  | inert datum => exact ⟨trivial, clean⟩

theorem carries_entries {heap : Heap} (clean : Clean P heap) {bindings : List (String × Binding)}
    (carries : ∀ binding ∈ bindings, binding.2.Carries P) :
    (∀ e ∈ (entries heap bindings).1, e.2.Carries P) ∧ Clean P (entries heap bindings).2 := by
  induction bindings generalizing heap with
  | nil => exact ⟨by simp [entries], clean⟩
  | cons binding rest ih =>
      obtain ⟨name, binding⟩ := binding
      obtain ⟨here, others⟩ := List.forall_mem_cons.mp carries
      have first := carries_entry clean here
      have later := ih first.2 others
      refine ⟨fun e mem => ?_, later.2⟩
      rcases List.mem_append.mp mem with new | old
      · obtain rfl : e = (name, (entry heap binding).1) := List.mem_singleton.mp new
        exact first.1
      · exact later.1 e old

mutual

theorem clean_build {heap : Heap} (clean : Clean P heap) (blueprint : Blueprint)
    (carries : blueprint.Carries P) : Clean P (blueprint.build heap).2 := by
  match blueprint with
  | .mk functions children =>
      have bound := carries_entries clean carries.1
      have built := clean_buildAll bound.2 children carries.2
      exact clean_alloc built ⟨bound.1, trivial⟩

theorem clean_buildAll {heap : Heap} (clean : Clean P heap) (children : List (String × Blueprint))
    (carries : CarriesAll P children) : Clean P (buildAll heap children).2 := by
  match children with
  | [] => exact clean
  | (_, blueprint) :: rest =>
      have built := clean_build clean blueprint carries.1
      exact clean_buildAll built rest carries.2

end

end Blueprint

theorem Registry.carries_register {registry changed : Registry} {name : String} {source : Source}
    (registered : registry.register name source = .ok changed)
    (known : ∀ entry ∈ registry.modules, entry.2.Carries P) (carries : source.Carries P) :
    ∀ entry ∈ changed.modules, entry.2.Carries P := by
  intro entry mem
  cases source with
  | invalid => cases registered
  | scope id | factory made =>
      simp only [register, Except.ok.injEq] at registered
      subst registered
      split at mem
      · exact known entry mem
      · rcases Table.mem_insert mem with new | old
        · rw [new]
          exact carries
        · exact known entry old

/-! ### Changes, frames and moments -/

theorem Change.Carries.apply (hereditary : Node.Hereditary P) (known : state.Carries P) {c : Change}
    (carries : c.Carries P) : (c.apply state).Carries P := by
  cases c with
  | visit runtime node =>
      simp only [Change.apply]
      exact known.modifyRuntime runtime fun r old => ⟨old.calls, carries⟩
  | openScope parent => exact known.allocate ⟨by simp, trivial⟩
  | write slot closure body =>
      refine known.modifyScope slot.scope fun scope old => ⟨fun entry mem => ?_, old.returned⟩
      rcases Table.mem_insert mem with new | before
      · rw [new]
        exact carries
      · exact old.functions entry before
  | setReturned scope returned =>
      exact known.modifyScope scope fun _ old => ⟨old.functions, carries⟩
  | attach scope name child =>
      exact known.modifyScope scope fun _ old => ⟨old.functions, old.returned⟩
  | print runtime text =>
      simp only [Change.apply, State.print]
      split
      · exact known.record _
      · exact known.record _
  | addRuntime importer directory => exact known.addRuntime hereditary ..
  | keep runtime place scope => exact known.setRegistry _ (known.modules _)
  | register registry name source =>
      simp only [Change.apply]
      split
      · rename_i changed registered
        exact known.setRegistry registry
          (Registry.carries_register registered (known.modules registry) carries)
      · exact known
  | build blueprint =>
      exact ⟨Blueprint.clean_build known.scope blueprint carries, known.runtime, known.modules⟩
  | settle registry name scope =>
      refine known.setRegistry registry fun entry mem => ?_
      rcases Table.mem_insert mem with new | old
      · rw [new]
        trivial
      · exact known.modules registry entry old
  | trace _ | begin _ | finish _ | runFactory _ => exact known.record _
  | mark node => exact known.same rfl rfl rfl

theorem Frame.Carries.enter (known : state.Carries P) {frame : Frame} (carries : frame.Carries P) :
    (frame.enter state).Carries P := by
  cases frame with
  | call runtime node =>
      simp only [Frame.enter]
      exact known.modifyRuntime runtime fun r old =>
        ⟨List.forall_mem_cons.mpr ⟨carries, old.calls⟩, old.current⟩
  | builtin invocation => exact known
  | loading runtime place => exact known.setRegistry _ (known.modules _)

theorem State.Carries.leave (known : state.Carries P) (frame : Frame) :
    (frame.leave state).Carries P := by
  cases frame with
  | call runtime node =>
      simp only [Frame.leave]
      exact known.modifyRuntime runtime fun r old =>
        ⟨fun node mem => old.calls node (List.mem_of_mem_tail mem), old.current⟩
  | builtin invocation => exact known
  | loading runtime place => exact known.setRegistry _ (known.modules _)

/-! ### What holds of all trees is carried by everything -/

mutual

theorem Object.carries_of_forall (all : ∀ node, P node) (object : Object) : object.Carries P := by
  match object with
  | .tree node => exact all node
  | .function _ entry => exact Entry.carries_of_forall all entry
  | .absent | .value _ | .scope _ | .plain .. => trivial

theorem Entry.carries_of_forall (all : ∀ node, P node) (entry : Entry) : entry.Carries P := by
  match entry with
  | .host _ procedure => exact Procedure.carries_of_forall all procedure
  | .custom _ body => exact Object.carries_of_forall all body
  | .builtin .. | .inert _ => trivial

theorem Procedure.carries_of_forall (all : ∀ node, P node) (procedure : Procedure) :
    procedure.Carries P := by
  match procedure with
  | .constant result => exact Object.carries_of_forall all result
  | .argumentCount | .argument _ | .currentScope | .yieldTree | .describeContext | .crash _
  | .refuse .. => trivial

end

theorem Binding.carries_of_forall (all : ∀ node, P node) (binding : Binding) :
    binding.Carries P := by
  cases binding with
  | host name procedure => exact procedure.carries_of_forall all
  | custom body => exact body.carries_of_forall all
  | inert datum => trivial

mutual

theorem Blueprint.carries_of_forall (all : ∀ node, P node) (blueprint : Blueprint) :
    blueprint.Carries P := by
  match blueprint with
  | .mk functions children =>
      exact ⟨fun binding _ => binding.2.carries_of_forall all,
        Blueprint.carriesAll_of_forall all children⟩

theorem Blueprint.carriesAll_of_forall (all : ∀ node, P node)
    (children : List (String × Blueprint)) : Blueprint.CarriesAll P children := by
  match children with
  | [] => trivial
  | (_, blueprint) :: rest =>
      exact ⟨Blueprint.carries_of_forall all blueprint, Blueprint.carriesAll_of_forall all rest⟩

end

theorem Recipe.carries_of_forall (all : ∀ node, P node) (recipe : Recipe) : recipe.Carries P := by
  cases recipe with
  | scope blueprint => exact blueprint.carries_of_forall all
  | existing _ | other _ | crash _ => trivial

theorem Source.carries_of_forall (all : ∀ node, P node) (source : Source) : source.Carries P := by
  cases source with
  | factory made => exact fun runs => (made.recipe runs).carries_of_forall all
  | scope _ | invalid => trivial

theorem Context.carries_of_forall (all : ∀ node, P node) (context : Context) :
    context.Carries P :=
  ⟨fun x _ => x.carries_of_forall all, all _⟩

theorem State.carries_of_forall (all : ∀ node, P node) (state : State) : state.Carries P where
  scope id := ⟨fun entry _ => entry.2.carries_of_forall all, Object.carries_of_forall all _⟩
  runtime id := ⟨fun node _ => all node, all _⟩
  modules id entry _ := by
    cases entry.2 with
    | ready scope => trivial
    | pending made => exact fun runs => (made.recipe runs).carries_of_forall all

theorem Node.hereditary_of_forall (all : ∀ node, P node) : Node.Hereditary P where
  absent := all _
  call _ := ⟨fun node _ => all node, all _⟩
  block _ node _ := all node
  program _ node _ := all node
  group _ node _ := all node
  mark _ _ := all _

end TreeScript
