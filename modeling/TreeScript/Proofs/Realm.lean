import TreeScript.Proofs.SoundState

/-!
# Realms

A realm is a part of the heap that nothing leads out of: whatever a scope of the realm refers to is
in the realm, and so is everything that was not there at the beginning. A runtime whose root is in
the realm imports through a registry that holds scopes of the realm alone. A name that is looked up
in a scope of the realm is found in the realm, so a change that is made through such names leaves
every scope outside as it was. The builtins of a runtime are bound in its root scope and nowhere
else, and whoever finds one there works for a runtime of the realm.
-/

namespace TreeScript

/-- The scope that an object leads to, if it is a scope or a memory. -/
def Object.target? : Object → Option ScopeId
  | .scope id => some id
  | .value (.memory _ (some slot)) => some slot.scope
  | _ => none

/-- A part of the heap and the registries that belong to it. -/
structure Realm where
  scopes : ScopeId → Prop
  registries : RegistryId → Prop

/-- An object that is no node and does not lead out of the realm. -/
structure Object.In (realm : Realm) (object : Object) : Prop where
  isNode : object.isNode = false
  target : ∀ id, object.target? = some id → realm.scopes id

/-- A function that does not lead out of the realm. -/
def Entry.In (realm : Realm) : Entry → Prop
  | .custom closure body => realm.scopes closure ∧ (body.isNode = true ∨ body.In realm)
  | .host .. => False
  | .builtin .. | .inert _ => True

/-- Nothing in the scope leads out of the realm. -/
structure Scope.In (realm : Realm) (scope : Scope) : Prop where
  functions : ∀ entry ∈ scope.functions, entry.2.In realm
  children : ∀ child ∈ scope.children, realm.scopes child.2
  returned : scope.returned.In realm
  parent : ∀ parent, scope.parent = some parent → realm.scopes parent

/-- The scopes that a scope refers to: its parent, its children, the closures of its functions, and
whatever the bodies of functions and the returned object lead to. -/
inductive Scope.RefersTo (scope : Scope) : ScopeId → Prop
  | parent {id : ScopeId} : scope.parent = some id → RefersTo scope id
  | child {name : String} {id : ScopeId} : (name, id) ∈ scope.children → RefersTo scope id
  | closure {name : String} {id : ScopeId} {body : Object} :
      (name, Entry.custom id body) ∈ scope.functions → RefersTo scope id
  | body {name : String} {closure id : ScopeId} {body : Object} :
      (name, Entry.custom closure body) ∈ scope.functions → body.target? = some id →
      RefersTo scope id
  | returned {id : ScopeId} : scope.returned.target? = some id → RefersTo scope id

theorem Object.in_absent (realm : Realm) : Object.absent.In realm := ⟨rfl, by simp [target?]⟩

theorem Object.in_scope {realm : Realm} {id : ScopeId} (inside : realm.scopes id) :
    (Object.scope id).In realm := by
  refine ⟨rfl, fun other found => ?_⟩
  cases found
  exact inside

theorem Object.in_memory {realm : Realm} {slot : Slot} (inside : realm.scopes slot.scope)
    (name : String) : (Object.value (.memory name (some slot))).In realm := by
  refine ⟨rfl, fun other found => ?_⟩
  cases found
  exact inside

/-- A tree is a node, or else it leads nowhere. -/
theorem Object.node_or_in (realm : Realm) (node : Node) :
    (Object.ofNode node).isNode = true ∨ (Object.ofNode node).In realm := by
  cases node with
  | absent => exact .inr (Object.in_absent realm)
  | list mark items => exact .inr ⟨rfl, by simp [ofNode, target?]⟩
  | _ => exact .inl rfl

theorem Scope.in_empty (realm : Realm) (parent : Option ScopeId)
    (inside : ∀ id, parent = some id → realm.scopes id) : ({ parent } : Scope).In realm where
  functions := by simp
  children := by simp
  returned := Object.in_absent realm
  parent := inside

/-! ### Names are found in the realm -/

namespace Heap

variable {heap : Heap} {realm : Realm}

/-- Nothing leads out of the realm. -/
def Closed (heap : Heap) (realm : Realm) : Prop :=
  ∀ id, realm.scopes id → (heap.get id).In realm

theorem Closed.chain (closed : heap.Closed realm) {id : ScopeId} (inside : realm.scopes id) :
    ∀ scope ∈ heap.chain id, realm.scopes scope := by
  unfold Heap.chain
  generalize id + 1 = count
  induction count generalizing id with
  | zero => simp [chainUpTo]
  | succ count ih =>
      intro scope mem
      simp only [chainUpTo] at mem
      rcases List.mem_cons.mp mem with rfl | mem
      · exact inside
      · cases parent : (heap.get id).parent with
        | none => simp [parent] at mem
        | some above =>
            rw [parent] at mem
            exact ih ((closed id inside).parent above parent) scope mem

theorem Closed.namespace? (closed : heap.Closed realm) {id space : ScopeId} {name : String}
    (inside : realm.scopes id) (found : heap.namespace? id name = some space) :
    realm.scopes space := by
  obtain ⟨scope, mem, child⟩ := List.exists_of_findSome?_eq_some found
  exact (closed scope (closed.chain inside scope mem)).children _ (Table.mem_of_find? child)

theorem Closed.findNamespace? (closed : heap.Closed realm) {id space : ScopeId}
    {segments : List String} (inside : realm.scopes id)
    (found : heap.findNamespace? id segments = some space) : realm.scopes space := by
  induction segments generalizing space with
  | nil => cases found
  | cons last rest ih =>
      cases rest with
      | nil => exact closed.namespace? inside found
      | cons other rest =>
          simp only [Heap.findNamespace?, Option.or_eq_some_iff] at found
          rcases found with whole | ⟨-, part⟩
          · exact closed.namespace? inside whole
          · obtain ⟨outer, known, child⟩ := Option.bind_eq_some_iff.mp part
            exact (closed outer (ih known)).children _ (Table.mem_of_find? child)

/-- What a name refers to is bound in a scope of the realm. -/
theorem Closed.resolve (closed : heap.Closed realm) {id : ScopeId} {name : String} {entry : Entry}
    (inside : realm.scopes id) (found : heap.resolve id name = .ok entry) :
    ∃ scope key, realm.scopes scope ∧ (key, entry) ∈ (heap.get scope).functions := by
  unfold Heap.resolve at found
  split at found
  · rename_i bound
    cases found
    obtain ⟨owner, owned, bound⟩ := Option.bind_eq_some_iff.mp bound
    have mem := List.mem_of_find?_eq_some owned
    exact ⟨owner, name, closed.chain inside owner mem, Table.mem_of_find? bound⟩
  · split at found
    · rename_i member last rest segments
      split at found
      · cases found
      · rename_i space known
        split at found
        · rename_i bound
          cases found
          exact ⟨space, member, closed.findNamespace? inside known, Table.mem_of_find? bound⟩
        · cases found
    · cases found

end Heap

/-! ### Without a host -/

theorem Object.Valid.isNode {scopes runtimes : Nat} {object : Object}
    (valid : object.Valid ⟨false, scopes, runtimes⟩) : object.isNode = false := by
  cases object with
  | tree node =>
      rcases valid with hosted | ⟨mark, items, rfl⟩
      · cases hosted
      · rfl
  | _ => rfl

/-- Without a host nothing in a scope leads out of a realm but what it refers to. -/
theorem Scope.Sound.into {scopes runtimes : Nat} {id : ScopeId} {scope : Scope} {realm : Realm}
    (sound : scope.Sound ⟨false, scopes, runtimes⟩ id)
    (inside : ∀ other, scope.RefersTo other → realm.scopes other) : scope.In realm where
  functions := by
    rintro ⟨name, entry⟩ mem
    have valid := sound.functions _ mem
    cases entry with
    | builtin owner builtin => trivial
    | host label procedure => cases valid.1
    | custom closure body =>
        refine ⟨inside closure (.closure mem), valid.2.imp_right fun plain => ?_⟩
        exact ⟨plain.isNode, fun other found => inside other (.body mem found)⟩
    | inert datum => trivial
  children := fun child mem => inside child.2 (.child mem)
  returned := ⟨sound.returned.isNode, fun other found => inside other (.returned found)⟩
  parent := fun other found => inside other (.parent found)

theorem Heap.Sound.closed {runtimes : Nat} {heap : Heap} {realm : Realm}
    (sound : heap.Sound false runtimes)
    (inside : ∀ id, id < heap.scopes.size → realm.scopes id →
      ∀ other, (heap.get id).RefersTo other → realm.scopes other) : heap.Closed realm := by
  intro id known
  by_cases old : id < heap.scopes.size
  · exact (sound id old).into (inside id old known)
  · rw [heap.get_of_size_le (Nat.le_of_not_lt old)]
    exact Scope.in_empty realm none (by simp)

/-! ### The builtins of a runtime -/

/-- The builtins of a runtime are bound in its root scope and nowhere else. -/
def State.Housed (state : State) : Prop :=
  ∀ id name owner builtin, (name, Entry.builtin owner builtin) ∈ (state.heap.get id).functions →
    owner < state.runtimes.size ∧ (state.runtime owner).root = id

namespace State.Housed

variable {state after : State}

/-- It is enough that no builtin is bound anew. -/
theorem mono (housed : state.Housed) (grows : state.Grows after)
    (old : ∀ id name owner builtin, (name, Entry.builtin owner builtin) ∈
      (after.heap.get id).functions →
        (name, Entry.builtin owner builtin) ∈ (state.heap.get id).functions) :
    after.Housed := by
  intro id name owner builtin mem
  obtain ⟨inside, root⟩ := housed id name owner builtin (old id name owner builtin mem)
  refine ⟨Nat.lt_of_lt_of_le inside grows.runtimes, ?_⟩
  rw [(grows.runtime owner inside).root]
  exact root

theorem modify (housed : state.Housed) (id : ScopeId) {change : Scope → Scope}
    (grows : ∀ scope : Scope, scope.Grows (change scope))
    (old : ∀ (scope : Scope) (name : String) (owner : RuntimeId) (builtin : Builtin),
      (name, Entry.builtin owner builtin) ∈ (change scope).functions →
        (name, Entry.builtin owner builtin) ∈ scope.functions) :
    (state.modifyHeap (·.modify id change)).Housed := by
  refine housed.mono (state.grows_of_heap (state.heap.grows_modify id grows)) ?_
  intro other name owner builtin mem
  simp only [State.modifyHeap] at mem
  by_cases same : other = id
  · subst same
    by_cases inside : other < state.heap.scopes.size
    · rw [Heap.get_modify_self state.heap other change inside] at mem
      exact old _ name owner builtin mem
    · rw [Heap.get_of_size_le _ (by simpa using inside)] at mem
      cases mem
  · rw [Heap.get_modify_of_ne state.heap change same] at mem
    exact mem

/-- The builtins of a new runtime are bound in its root. -/
theorem addRuntime (housed : state.Housed) (registry : RegistryId)
    (directory : Option Place) (output : Option Output) (reports : Bool) :
    (state.addRuntime registry directory output reports).2.Housed := by
  have grows := state.grows_addRuntime registry directory output reports
  have new := state.runtime_addRuntime_self registry directory output reports
  intro id name owner builtin mem
  change _ ∈ ((state.heap.alloc { functions := State.builtins state.runtimes.size }).2.get
    id).functions at mem
  rw [Heap.get_alloc] at mem
  split at mem
  · rename_i same
    obtain ⟨which, -, eq⟩ := List.mem_map.mp mem
    cases eq
    refine ⟨?_, ?_⟩
    · simp [State.addRuntime, State.allocate]
    · rw [new]
      exact same.symm
  · obtain ⟨inside, root⟩ := housed id name owner builtin mem
    refine ⟨Nat.lt_of_lt_of_le inside grows.runtimes, ?_⟩
    rw [(grows.runtime owner inside).root]
    exact root

end State.Housed

end TreeScript
