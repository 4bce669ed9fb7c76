import TreeScript.Proofs.Realm

/-!
# Confined states

A state is confined to a realm if it has come from another one without a change to any scope outside
and nothing leads out of the realm in it. A change that makes nothing lead out of the realm keeps
the state confined, and so does entering or leaving a frame.
-/

namespace TreeScript

namespace Heap.Closed

variable {heap : Heap} {realm : Realm}

theorem alloc (closed : heap.Closed realm) {scope : Scope} (into : scope.In realm) :
    (heap.alloc scope).2.Closed realm := by
  intro id inside
  rw [Heap.get_alloc]
  split
  · exact into
  · exact closed id inside

theorem modify (closed : heap.Closed realm) (id : ScopeId) {change : Scope → Scope}
    (into : ∀ scope : Scope, scope.In realm → (change scope).In realm) :
    (heap.modify id change).Closed realm := by
  intro other inside
  by_cases same : other = id
  · subst same
    by_cases old : other < heap.scopes.size
    · rw [get_modify_self heap other change old]
      exact into _ (closed other inside)
    · rw [Heap.get_of_size_le _ (by simpa using old)]
      exact Scope.in_empty realm none (by simp)
  · rw [get_modify_of_ne heap change same]
    exact closed other inside

end Heap.Closed

/-- A state has come from another one without a change to any scope outside the realm, and nothing
leads out of the realm in it. -/
structure Confined (realm : Realm) (origin state : State) : Prop where
  grows : origin.Grows state
  fresh : ∀ id, origin.heap.scopes.size ≤ id → realm.scopes id
  kept : ∀ id, ¬ realm.scopes id → state.heap.get id = origin.heap.get id
  closed : state.heap.Closed realm
  housed : state.Housed
  registries : ∀ id, id < state.runtimes.size → realm.scopes (state.runtime id).root →
    realm.registries (state.runtime id).registry
  modules : ∀ id, realm.registries id → (state.registry id).modules = []
  loaded : ∀ id, realm.registries id → ∀ entry ∈ (state.registry id).loaded, realm.scopes entry.2

/-- A change makes nothing lead out of the realm. -/
def Change.In (realm : Realm) (state : State) : Change → Prop
  | openScope parent => realm.scopes parent
  | write slot closure body =>
      realm.scopes slot.scope ∧ realm.scopes closure ∧ (body.isNode = true ∨ body.In realm)
  | setReturned scope returned => realm.scopes scope ∧ returned.In realm
  | attach scope _ child => realm.scopes scope ∧ realm.scopes child
  | addRuntime importer _ => realm.registries (state.runtime importer).registry
  | keep _ _ scope => realm.scopes scope
  | register .. | build _ | settle .. => False
  | visit .. | trace _ | print .. | mark _ | begin _ | finish _ | runFactory _ => True

/-- Without a host a realm is closed if what its scopes refer to and what its registries hold is in
it. -/
theorem State.Sound.confined {state : State} {realm : Realm} (sound : state.Sound false)
    (housed : state.Housed) (fresh : ∀ id, state.heap.scopes.size ≤ id → realm.scopes id)
    (inside : ∀ id, id < state.heap.scopes.size → realm.scopes id →
      ∀ other, (state.heap.get id).RefersTo other → realm.scopes other)
    (registries : ∀ id, id < state.runtimes.size → realm.scopes (state.runtime id).root →
      realm.registries (state.runtime id).registry)
    (loaded : ∀ id, realm.registries id → ∀ entry ∈ (state.registry id).loaded,
      realm.scopes entry.2) : Confined realm state state where
  grows := .refl state
  fresh := fresh
  kept _ _ := rfl
  closed := sound.heap.closed inside
  housed := housed
  registries := registries
  modules id _ := by
    refine List.eq_nil_iff_forall_not_mem.mpr fun entry mem => ?_
    cases (sound.modules id entry mem).1
  loaded := loaded

namespace Confined

variable {realm : Realm} {origin state after : State}

/-- Scopes that are new lie in the realm. -/
theorem new (confined : Confined realm origin state) {id : ScopeId}
    (young : state.heap.scopes.size ≤ id) : realm.scopes id :=
  confined.fresh id (Nat.le_trans confined.grows.heap.size young)

/-- What happens to no scope, to no registry and to no root stays in the realm. -/
theorem same (confined : Confined realm origin state) (grows : state.Grows after)
    (heap : after.heap = state.heap) (size : after.runtimes.size = state.runtimes.size)
    (registries : after.registries = state.registries) : Confined realm origin after where
  grows := confined.grows.trans grows
  fresh := confined.fresh
  kept := heap ▸ confined.kept
  closed := heap ▸ confined.closed
  housed := confined.housed.mono grows (by rw [heap]; exact fun _ _ _ _ mem => mem)
  registries id inside root := by
    have stays := grows.runtime id (size ▸ inside)
    rw [stays.root] at root
    rw [stays.registry]
    exact confined.registries id (size ▸ inside) root
  modules id known := by
    rw [State.registry, registries]
    exact confined.modules id known
  loaded id known := by
    rw [State.registry, registries]
    exact confined.loaded id known

theorem work (confined : Confined realm origin state) (id : RuntimeId) {change : Runtime → Runtime}
    (stays : ∀ runtime : Runtime, runtime.Stays (change runtime)) :
    Confined realm origin (state.modifyRuntime id change) :=
  confined.same (state.grows_modifyRuntime id stays) rfl (state.size_modifyRuntime id change) rfl

theorem modify (confined : Confined realm origin state) {id : ScopeId} (inside : realm.scopes id)
    {change : Scope → Scope} (grows : ∀ scope : Scope, scope.Grows (change scope))
    (into : ∀ scope : Scope, scope.In realm → (change scope).In realm)
    (old : ∀ (scope : Scope) (name : String) (owner : RuntimeId) (builtin : Builtin),
      (name, Entry.builtin owner builtin) ∈ (change scope).functions →
        (name, Entry.builtin owner builtin) ∈ scope.functions) :
    Confined realm origin (state.modifyHeap (·.modify id change)) :=
  { confined with
    grows := confined.grows.trans (state.grows_of_heap (state.heap.grows_modify id grows))
    kept := by
      intro other outside
      have ne : other ≠ id := by
        rintro rfl
        exact outside inside
      rw [State.modifyHeap, Heap.get_modify_of_ne state.heap change ne]
      exact confined.kept other outside
    closed := confined.closed.modify id into
    housed := confined.housed.modify id grows old }

theorem setRegistry (confined : Confined realm origin state) (id : RegistryId) {registry : Registry}
    (grows : state.Grows (state.setRegistry id registry))
    (modules : registry.modules = (state.registry id).modules)
    (loaded : ∀ entry ∈ registry.loaded,
      entry ∈ (state.registry id).loaded ∨ realm.scopes entry.2) :
    Confined realm origin (state.setRegistry id registry) := by
  refine { confined with grows := confined.grows.trans grows, modules := ?_, loaded := ?_ }
  · intro other known
    rcases state.registry_setRegistry_cases id other registry with eq | ⟨rfl, eq⟩
    · rw [eq]
      exact confined.modules other known
    · rw [eq, modules]
      exact confined.modules other known
  · intro other known entry mem
    rcases state.registry_setRegistry_cases id other registry with eq | ⟨rfl, eq⟩
    · rw [eq] at mem
      exact confined.loaded other known entry mem
    · rw [eq] at mem
      rcases loaded entry mem with old | inside
      · exact confined.loaded other known entry old
      · exact inside

theorem openScope (confined : Confined realm origin state) {parent : ScopeId}
    (inside : realm.scopes parent) :
    Confined realm origin (Change.apply state (.openScope parent)) := by
  have grows := Change.apply_grows state (.openScope parent)
  have into : Scope.In realm { parent := some parent } := Scope.in_empty realm _ (by
    rintro _ ⟨⟩
    exact inside)
  refine { confined with
    grows := confined.grows.trans grows
    kept := ?_
    closed := confined.closed.alloc into
    housed := confined.housed.mono grows ?_ }
  · intro id outside
    have ne : id ≠ state.heap.scopes.size := by
      rintro rfl
      exact outside (confined.new (Nat.le_refl _))
    change (state.heap.alloc _).2.get id = _
    rw [Heap.get_alloc, if_neg ne]
    exact confined.kept id outside
  · intro id name owner builtin mem
    change _ ∈ ((state.heap.alloc _).2.get id).functions at mem
    rw [Heap.get_alloc] at mem
    split at mem
    · cases mem
    · exact mem

/-- A new runtime has a new root. -/
theorem addRuntime (confined : Confined realm origin state) {importer : RuntimeId}
    (known : realm.registries (state.runtime importer).registry) (directory : Place) :
    Confined realm origin (Change.apply state (.addRuntime importer directory)) := by
  have grows := Change.apply_grows state (.addRuntime importer directory)
  have new := Change.runtime_addRuntime state importer directory
  have size := Change.size_addRuntime state importer directory
  have into : Scope.In realm { functions := State.builtins state.runtimes.size } := by
    refine ⟨fun entry mem => ?_, by simp, Object.in_absent realm, by simp⟩
    obtain ⟨builtin, -, rfl⟩ := List.mem_map.mp mem
    trivial
  refine { confined with
    grows := confined.grows.trans grows
    kept := ?_
    closed := confined.closed.alloc into
    housed := confined.housed.addRuntime _ _ _ _
    registries := ?_ }
  · intro id outside
    have ne : id ≠ state.heap.scopes.size := by
      rintro rfl
      exact outside (confined.new (Nat.le_refl _))
    change (state.heap.alloc _).2.get id = _
    rw [Heap.get_alloc, if_neg ne]
    exact confined.kept id outside
  · intro id inside root
    rcases Nat.lt_succ_iff_lt_or_eq.mp (Nat.lt_of_lt_of_eq inside size) with old | rfl
    · have stays := grows.runtime id old
      rw [stays.root] at root
      rw [stays.registry]
      exact confined.registries id old root
    · rw [new]
      exact known

/-- A change that makes nothing lead out of the realm stays in it. -/
theorem change (confined : Confined realm origin state) {c : Change} (into : c.In realm state) :
    Confined realm origin (c.apply state) := by
  cases c with
  | openScope parent => exact confined.openScope into
  | addRuntime importer directory => exact confined.addRuntime into directory
  | register registry name source | build blueprint | settle registry name scope => exact into.elim
  | write slot closure body =>
      obtain ⟨inside, closed, plain⟩ := into
      refine confined.modify inside (fun _ => ⟨rfl, Table.names_prefix_insert .., List.prefix_rfl⟩)
        (fun scope old => { old with functions := fun entry mem => ?_ }) ?_
      · rcases Table.mem_insert mem with new | mem
        · rw [new]
          exact ⟨closed, plain⟩
        · exact old.functions entry mem
      · intro scope name owner builtin mem
        rcases Table.mem_insert mem with new | mem
        · cases new
        · exact mem
  | setReturned scope returned =>
      exact confined.modify into.1 (fun _ => ⟨rfl, List.prefix_rfl, List.prefix_rfl⟩)
        (fun _ old => { old with returned := into.2 }) fun _ _ _ _ mem => mem
  | attach scope name child =>
      refine confined.modify into.1 (fun _ => ⟨rfl, List.prefix_rfl, Table.names_prefix_insert ..⟩)
        (fun _ old => { old with children := fun entry mem => ?_ }) fun _ _ _ _ mem => mem
      rcases Table.mem_insert mem with new | mem
      · rw [new]
        exact into.2
      · exact old.children entry mem
  | keep runtime place scope =>
      refine confined.setRegistry _ (Change.apply_grows state (.keep runtime place scope)) rfl ?_
      intro entry mem
      refine (List.mem_append.mp mem).imp_right fun new => ?_
      obtain rfl := List.mem_singleton.mp new
      exact into
  | visit runtime node =>
      simp only [Change.apply]
      exact confined.work runtime fun _ => rfl
  | print runtime text =>
      simp only [Change.apply, State.print]
      split
      · exact confined.same (state.grows_record _) rfl rfl rfl
      · exact confined.same (state.grows_record _) rfl rfl rfl
  | trace _ | mark _ | begin _ | finish _ | runFactory _ =>
      exact confined.same (Change.apply_grows ..) rfl rfl rfl

theorem enter (confined : Confined realm origin state) (frame : Frame) :
    Confined realm origin (frame.enter state) := by
  cases frame with
  | call runtime node =>
      simp only [Frame.enter]
      exact confined.work runtime fun _ => rfl
  | builtin invocation => exact confined
  | loading runtime place =>
      exact confined.setRegistry _ (Frame.enter_grows state (.loading runtime place)) rfl
        fun _ mem => .inl mem

theorem leave (confined : Confined realm origin state) (frame : Frame) :
    Confined realm origin (frame.leave state) := by
  cases frame with
  | call runtime node =>
      simp only [Frame.leave]
      exact confined.work runtime fun _ => rfl
  | builtin invocation => exact confined
  | loading runtime place =>
      exact confined.setRegistry _ (Frame.leave_grows state (.loading runtime place)) rfl
        fun _ mem => .inl mem

theorem reportError (confined : Confined realm origin state) (runtime : RuntimeId) (cause : Cause) :
    Confined realm origin (state.reportError runtime cause) := by
  unfold State.reportError
  split
  · exact confined.same (state.grows_record _) rfl rfl rfl
  · exact confined

end Confined

end TreeScript
