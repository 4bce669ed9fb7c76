import TreeScript.Proofs.Contract
import TreeScript.Proofs.Realm
import TreeScript.Proofs.Routine

/-!
# Sealed scopes

A scope is sealed when nothing leads to it: it is no closure and no namespace, no memory lies in it,
nothing returns it, and it is the module of no file. Scopes may have it as their parent, so names
are still found in it. Whoever evaluates in another scope cannot come by a sealed one, and so its
functions and what it returns stay as they are. An import adds a runtime and makes its module a
namespace of the root scope; without imports there are no new runtimes, and the namespaces of a
sealed scope stay as well.
-/

namespace TreeScript

/-- The object does not lead to the scope. -/
def Object.Avoids (root : ScopeId) (object : Object) : Prop := object.target? ≠ some root

/-- The function does not lead to the scope. That is not known of a procedure of the host. -/
def Entry.Avoids (root : ScopeId) : Entry → Prop
  | .custom closure body => closure ≠ root ∧ body.Avoids root
  | .host .. => False
  | .builtin .. | .inert _ => True

/-- Nothing in the scope leads to the other one, which may be its parent. -/
structure Scope.Avoids (root : ScopeId) (scope : Scope) : Prop where
  functions : ∀ entry ∈ scope.functions, entry.2.Avoids root
  children : ∀ child ∈ scope.children, child.2 ≠ root
  returned : scope.returned.Avoids root

/-- The scope and the arguments of the context do not lead to the scope. -/
structure Context.Avoids (root : ScopeId) (context : Context) : Prop where
  scope : context.scope ≠ root
  parameters : ∀ x ∈ context.parameters, x.Avoids root

/-- A scope has become another one with the same functions that returns the same. Its namespaces
have not changed either, unless there are imports. -/
structure Scope.Kept (imports : Prop) (before after : Scope) : Prop where
  functions : after.functions = before.functions
  returned : after.returned = before.returned
  children : ¬ imports → after.children = before.children

/-- The scope is sealed in a state, and since an earlier one it was kept. No runtimes are new,
unless there are imports. -/
structure Sealed (root : ScopeId) (imports : Prop) (origin state : State) : Prop where
  root_lt : root < state.heap.scopes.size
  scopes : ∀ id, (state.heap.get id).Avoids root
  modules : ∀ id, (state.registry id).modules = []
  loaded : ∀ id, ∀ entry ∈ (state.registry id).loaded, entry.2 ≠ root
  kept : (origin.heap.get root).Kept imports (state.heap.get root)
  runtimes : ¬ imports → state.runtimes.size = origin.runtimes.size

/-- The change makes nothing lead to the scope and leaves it alone. -/
def Change.Avoids (root : ScopeId) (imports : Prop) : Change → Prop
  | write slot closure body => slot.scope ≠ root ∧ closure ≠ root ∧ body.Avoids root
  | setReturned scope returned => scope ≠ root ∧ returned.Avoids root
  | attach scope _ child => child ≠ root ∧ (scope = root → imports)
  | keep _ _ scope => scope ≠ root
  | addRuntime .. => imports
  | register .. | build _ | settle .. => False
  | visit .. | trace _ | openScope _ | print .. | mark _ | begin _ | finish _ | runFactory _ => True

variable {root : ScopeId} {imports : Prop}

@[simp] theorem Object.avoids_absent : Object.absent.Avoids root := by simp [Avoids, target?]

theorem Object.avoids_scope {id : ScopeId} (other : id ≠ root) : (Object.scope id).Avoids root := by
  simpa [Avoids, target?] using other

@[simp] theorem Object.avoids_ofNode (node : Node) : (Object.ofNode node).Avoids root := by
  cases node <;> simp [ofNode, Avoids, target?]

@[simp] theorem Object.avoids_tree (node : Node) : (Object.tree node).Avoids root := by
  simp [Avoids, target?]

theorem Object.IsDatum.avoids {object : Object} (datum : object.IsDatum) : object.Avoids root := by
  unfold IsDatum at datum
  split at datum
  · simp [Avoids, target?]
  · simp [Avoids, target?]
  · simp [Avoids, target?]
  · exact datum.elim

theorem Scope.avoids_empty (parent : Option ScopeId) : ({ parent } : Scope).Avoids root where
  functions := by simp
  children := by simp
  returned := Object.avoids_absent

/-- The root of a new runtime leads to no scope. -/
theorem Scope.avoids_builtins (id : RuntimeId) :
    ({ functions := State.builtins id } : Scope).Avoids root where
  functions entry mem := by
    obtain ⟨builtin, -, rfl⟩ := List.mem_map.mp mem
    trivial
  children := by simp
  returned := Object.avoids_absent

protected theorem Scope.Kept.refl (scope : Scope) : scope.Kept imports scope :=
  ⟨rfl, rfl, fun _ => rfl⟩

/-! ### What is valid leads to scopes that exist -/

section

variable {scopes runtimes : Nat}

theorem Object.Valid.avoids {object : Object} (valid : object.Valid ⟨false, scopes, runtimes⟩)
    (new : scopes ≤ root) : object.Avoids root := by
  intro leads
  unfold target? at leads
  split at leads
  · cases leads
    exact absurd valid (Nat.not_lt_of_le new)
  · cases leads
    exact absurd valid.1 (Nat.not_lt_of_le new)
  · cases leads

theorem Scope.Sound.avoids {scope : Scope} {id : ScopeId}
    (sound : scope.Sound ⟨false, scopes, runtimes⟩ id) (new : scopes ≤ root) :
    scope.Avoids root where
  functions := by
    rintro ⟨name, entry⟩ mem
    have valid := sound.functions _ mem
    cases entry with
    | host label procedure => cases valid.1
    | custom closure body =>
        refine ⟨Nat.ne_of_lt (Nat.lt_of_lt_of_le valid.1 new), ?_⟩
        rcases valid.2 with isNode | plain
        · cases body with
          | tree node => exact Object.avoids_tree node
          | _ => cases isNode
        · exact plain.avoids new
    | builtin owner builtin => trivial
    | inert datum => trivial
  children child mem := Nat.ne_of_lt (Nat.lt_of_lt_of_le (sound.children child mem) new)
  returned := sound.returned.avoids new

end

/-- Without a host the root of a new runtime is sealed. -/
theorem State.Sound.sealed {state : State} (sound : state.Sound false) (registry : RegistryId)
    (directory : Option Place) (output : Option Output) (reports : Bool) :
    Sealed state.heap.scopes.size imports
      (state.addRuntime registry directory output reports).2
      (state.addRuntime registry directory output reports).2 where
  root_lt := by
    change _ < (state.heap.alloc _).2.scopes.size
    simp
  scopes id := by
    change ((state.heap.alloc { functions := builtins state.runtimes.size }).2.get id).Avoids _
    rw [Heap.get_alloc]
    split
    · exact Scope.avoids_builtins _
    · by_cases old : id < state.heap.scopes.size
      · exact (sound.heap id old).avoids (Nat.le_refl _)
      · rw [state.heap.get_of_size_le (Nat.le_of_not_lt old)]
        exact Scope.avoids_empty none
  modules id := by
    refine List.eq_nil_iff_forall_not_mem.mpr fun entry mem => ?_
    cases (sound.modules id entry mem).1
  loaded id entry mem := by
    obtain ⟨owner, inside, scope, -⟩ := sound.loaded id entry mem
    exact Nat.ne_of_lt (scope ▸ sound.root_lt owner inside)
  kept := .refl _
  runtimes _ := rfl

/-! ### Changes that leave a scope sealed -/

namespace Sealed

variable {origin state after : State}

theorem same (closed : Sealed root imports origin state) (heap : after.heap = state.heap)
    (size : after.runtimes.size = state.runtimes.size)
    (registries : after.registries = state.registries) : Sealed root imports origin after where
  root_lt := heap ▸ closed.root_lt
  scopes := heap ▸ closed.scopes
  modules id := by
    rw [State.registry, registries]
    exact closed.modules id
  loaded id := by
    rw [State.registry, registries]
    exact closed.loaded id
  kept := heap ▸ closed.kept
  runtimes none := size.trans (closed.runtimes none)

theorem alloc (closed : Sealed root imports origin state) {scope : Scope}
    (avoids : scope.Avoids root) (heap : after.heap = (state.heap.alloc scope).2)
    (size : ¬ imports → after.runtimes.size = state.runtimes.size)
    (registries : after.registries = state.registries) : Sealed root imports origin after where
  root_lt := by
    rw [heap, Heap.size_alloc]
    exact Nat.lt_succ_of_lt closed.root_lt
  scopes id := by
    rw [heap, Heap.get_alloc]
    split
    · exact avoids
    · exact closed.scopes id
  modules id := by
    rw [State.registry, registries]
    exact closed.modules id
  loaded id := by
    rw [State.registry, registries]
    exact closed.loaded id
  kept := by
    rw [heap, Heap.get_alloc_of_lt _ _ closed.root_lt]
    exact closed.kept
  runtimes none := (size none).trans (closed.runtimes none)

theorem modify (closed : Sealed root imports origin state) (id : ScopeId) {change : Scope → Scope}
    (avoids : ∀ scope : Scope, scope.Avoids root → (change scope).Avoids root)
    (keeps : id = root → ∀ scope : Scope, scope.Kept imports (change scope)) :
    Sealed root imports origin (state.modifyHeap (·.modify id change)) := by
  refine { closed with
    root_lt := Nat.lt_of_lt_of_eq closed.root_lt (Heap.size_modify ..).symm
    scopes := fun other => ?_
    kept := ?_ }
  · change ((state.heap.modify id change).get other).Avoids root
    by_cases same : other = id
    · subst same
      by_cases inside : other < state.heap.scopes.size
      · rw [Heap.get_modify_self _ _ _ inside]
        exact avoids _ (closed.scopes other)
      · rw [Heap.get_of_size_le _ (by simpa using inside)]
        exact Scope.avoids_empty none
    · rw [Heap.get_modify_of_ne _ _ same]
      exact closed.scopes other
  · change (origin.heap.get root).Kept imports ((state.heap.modify id change).get root)
    by_cases same : root = id
    · subst same
      rw [Heap.get_modify_self _ _ _ closed.root_lt]
      have changed := keeps rfl (state.heap.get root)
      exact ⟨changed.functions.trans closed.kept.functions,
        changed.returned.trans closed.kept.returned,
        fun none => (changed.children none).trans (closed.kept.children none)⟩
    · rw [Heap.get_modify_of_ne _ _ same]
      exact closed.kept

theorem setRegistry (closed : Sealed root imports origin state) (id : RegistryId)
    {registry : Registry} (modules : registry.modules = (state.registry id).modules)
    (loaded : ∀ entry ∈ registry.loaded,
      entry ∈ (state.registry id).loaded ∨ entry.2 ≠ root) :
    Sealed root imports origin (state.setRegistry id registry) := by
  refine { closed with modules := fun other => ?_, loaded := fun other entry mem => ?_ }
  · rcases state.registry_setRegistry_cases id other registry with eq | ⟨rfl, eq⟩
    · rw [eq]
      exact closed.modules other
    · rw [eq, modules]
      exact closed.modules other
  · rcases state.registry_setRegistry_cases id other registry with eq | ⟨rfl, eq⟩
    · rw [eq] at mem
      exact closed.loaded other entry mem
    · rw [eq] at mem
      exact (loaded entry mem).elim (closed.loaded other entry) id

/-- A change that makes nothing lead to a sealed scope leaves it sealed. -/
theorem change (closed : Sealed root imports origin state) {c : Change}
    (avoids : c.Avoids root imports) : Sealed root imports origin (c.apply state) := by
  cases c with
  | register registry name source | build blueprint | settle registry name scope =>
      exact avoids.elim
  | openScope parent => exact closed.alloc (Scope.avoids_empty _) rfl (fun _ => rfl) rfl
  | addRuntime importer directory =>
      exact closed.alloc (Scope.avoids_builtins _) rfl (absurd avoids) rfl
  | write slot closure body =>
      refine closed.modify slot.scope (fun scope old => ?_) fun same => absurd same avoids.1
      refine { old with functions := fun entry mem => ?_ }
      rcases Table.mem_insert mem with new | mem
      · rw [new]
        exact avoids.2
      · exact old.functions entry mem
  | setReturned scope returned =>
      exact closed.modify scope (fun _ old => { old with returned := avoids.2 })
        fun same => absurd same avoids.1
  | attach scope name child =>
      refine closed.modify scope (fun scope old => ?_) fun same other =>
        ⟨rfl, rfl, fun none => absurd (avoids.2 same) none⟩
      refine { old with children := fun entry mem => ?_ }
      rcases Table.mem_insert mem with new | mem
      · rw [new]
        exact avoids.1
      · exact old.children entry mem
  | keep runtime place scope =>
      refine closed.setRegistry _ rfl fun entry mem => (List.mem_append.mp mem).imp_right ?_
      intro new
      obtain rfl := List.mem_singleton.mp new
      exact avoids
  | print runtime text =>
      simp only [Change.apply, State.print]
      split
      · exact closed.same rfl rfl rfl
      · exact closed.same rfl rfl rfl
  | visit runtime node => exact closed.same rfl (state.size_modifyRuntime ..) rfl
  | trace _ | mark _ | begin _ | finish _ | runFactory _ => exact closed.same rfl rfl rfl

theorem enter (closed : Sealed root imports origin state) (frame : Frame) :
    Sealed root imports origin (frame.enter state) := by
  cases frame with
  | call runtime node => exact closed.same rfl (state.size_modifyRuntime ..) rfl
  | builtin invocation => exact closed
  | loading runtime place => exact closed.setRegistry _ rfl fun _ mem => .inl mem

theorem leave (closed : Sealed root imports origin state) (frame : Frame) :
    Sealed root imports origin (frame.leave state) := by
  cases frame with
  | call runtime node => exact closed.same rfl (state.size_modifyRuntime ..) rfl
  | builtin invocation => exact closed
  | loading runtime place => exact closed.setRegistry _ rfl fun _ mem => .inl mem

theorem reportError (closed : Sealed root imports origin state) (runtime : RuntimeId)
    (cause : Cause) : Sealed root imports origin (state.reportError runtime cause) := by
  unfold State.reportError
  split
  · exact closed.same rfl rfl rfl
  · exact closed

end Sealed

/-! ### The contract -/

/-- A sealed scope stays sealed. Nothing is evaluated in it but a block, which opens a scope of its
own, and no part gives it. -/
def aloofness (root : ScopeId) (imports : Prop) (origin : State) : Contract where
  allows _ state deed := match deed with
    | .visit _ object context =>
        Sealed root imports origin state ∧ object.Avoids root ∧
          (∀ x ∈ context.parameters, x.Avoids root) ∧
          (context.scope = root → ∃ body origin, object = .tree (.block body origin))
    | .change c => c.Avoids root imports
    | .enter _ | .leave _ | .fail .. | .halt _ => True
  encloses _ _ := True
  gives _ x after := Sealed root imports origin after ∧ x.Avoids root
  allows_leave _ _ _ := trivial

theorem Sealed.next {origin : State} {moment : Moment}
    (closed : Sealed root imports origin moment.state)
    (allowed : (aloofness root imports origin).allows moment.frames moment.state moment.deed) :
    Sealed root imports origin moment.nextState := by
  obtain ⟨depth, frames, state, deed⟩ := moment
  cases deed with
  | visit runtime object context => exact closed
  | change c => exact closed.change allowed
  | enter frame => exact closed.enter frame
  | leave frame => exact closed.leave frame
  | fail runtime cause node => exact closed.reportError runtime cause
  | halt reason => exact closed

end TreeScript
