import TreeScript.Proofs.Growth

/-!
# Valid references

Scopes and runtimes are known by their places, so whatever evaluation works with has to lead to
places that exist. Programs on their own know less than a host may hand in: no function entries as
values, no trees but lists, and every memory has the slot of its own name. A state is sound when
everything in it is valid, parents were there before their children, every runtime has a root of
its own, and every loaded file belongs to a runtime that imports from beside that file.
-/

namespace TreeScript

/-- What references may lead to, and whether a host takes part. -/
structure Extent where
  hosted : Bool
  scopes : Nat
  runtimes : Nat

namespace Extent

/-- The other extent reaches at least as far. -/
structure Within (before after : Extent) : Prop where
  hosted : after.hosted = before.hosted
  scopes : before.scopes ≤ after.scopes
  runtimes : before.runtimes ≤ after.runtimes

end Extent

/-- Without a host, a memory has the slot of its name. -/
def Value.Valid (extent : Extent) : Value → Prop
  | .memory name (some slot) =>
      slot.scope < extent.scopes ∧ (extent.hosted = false → slot.name = name)
  | .memory _ none => extent.hosted = true
  | _ => True

mutual

/-- An object that evaluation may yield. -/
def Object.Valid (extent : Extent) : Object → Prop
  | .absent => True
  | .value value => value.Valid extent
  | .scope id => id < extent.scopes
  | .tree node => extent.hosted = true ∨ ∃ mark items, node = .list mark items
  | .function _ entry => extent.hosted = true ∧ entry.Valid extent
  | .plain .. => extent.hosted = true

/-- An entry that a name may be bound to. The body of a custom function may be a node. -/
def Entry.Valid (extent : Extent) : Entry → Prop
  | .builtin runtime _ => runtime < extent.runtimes
  | .host _ procedure => extent.hosted = true ∧ procedure.Valid extent
  | .custom closure body =>
      closure < extent.scopes ∧ (body.isNode = true ∨ body.Valid extent)
  | .inert _ => extent.hosted = true

/-- A procedure that gives valid objects. -/
def Procedure.Valid (extent : Extent) : Procedure → Prop
  | .constant result => result.Valid extent
  | _ => True

end

/-- An object that may be evaluated: a node, or what evaluation may yield. -/
def Object.Evaluable (extent : Extent) (object : Object) : Prop :=
  object.isNode = true ∨ object.Valid extent

theorem Object.evaluable_ofNode (extent : Extent) (node : Node) :
    (Object.ofNode node).Evaluable extent := by
  cases node with
  | absent => exact .inr trivial
  | list mark items => exact .inr (.inr ⟨mark, items, rfl⟩)
  | _ => exact .inl rfl

theorem Object.evaluable_value {extent : Extent} {value : Value} (valid : value.Valid extent) :
    (Object.value value).Evaluable extent :=
  .inr valid

/-- A context whose scope and arguments are valid. -/
structure Context.Valid (extent : Extent) (context : Context) : Prop where
  scope : context.scope < extent.scopes
  parameters : ∀ x ∈ context.parameters, x.Valid extent

/-- A binding of a host module that is valid once it is built. -/
def Binding.Valid (extent : Extent) : Binding → Prop
  | .host _ procedure => procedure.Valid extent
  | .custom body => body.Evaluable extent
  | .inert _ => True

mutual

def Blueprint.Valid (extent : Extent) : Blueprint → Prop
  | .mk functions children =>
      (∀ binding ∈ functions, binding.2.Valid extent) ∧ ValidAll extent children

def Blueprint.ValidAll (extent : Extent) : List (String × Blueprint) → Prop
  | [] => True
  | (_, blueprint) :: rest => blueprint.Valid extent ∧ ValidAll extent rest

end

/-- A factory that returns valid scopes if it returns any. -/
def Recipe.Valid (extent : Extent) : Recipe → Prop
  | .scope blueprint => blueprint.Valid extent
  | .existing id => id < extent.scopes
  | .other _ | .crash _ => True

def Source.Valid (extent : Extent) : Source → Prop
  | .scope id => id < extent.scopes
  | .factory made => ∀ runs, (made.recipe runs).Valid extent
  | .invalid => True

/-- A module whose scope is valid or will be. -/
def Module.Valid (extent : Extent) : Module → Prop
  | .ready scope => scope < extent.scopes
  | .pending factory => ∀ runs, (factory.recipe runs).Valid extent

/-! ### What is valid stays valid -/

section

variable {before after : Extent}

theorem Value.Valid.mono {value : Value} (valid : value.Valid before)
    (within : before.Within after) : value.Valid after := by
  cases value with
  | memory name slot => cases slot with
    | none => exact within.hosted.trans valid
    | some slot =>
        exact ⟨Nat.lt_of_lt_of_le valid.1 within.scopes, fun h => valid.2 (within.hosted ▸ h)⟩
  | _ => trivial

mutual

theorem Object.Valid.mono {object : Object} (valid : object.Valid before)
    (within : before.Within after) : object.Valid after := by
  match object with
  | .absent => trivial
  | .value value => exact Value.Valid.mono valid within
  | .scope id => exact Nat.lt_of_lt_of_le valid within.scopes
  | .tree node => exact valid.imp_left within.hosted.trans
  | .function mark entry => exact ⟨within.hosted.trans valid.1, Entry.Valid.mono valid.2 within⟩
  | .plain mark datum => exact within.hosted.trans valid

theorem Entry.Valid.mono {entry : Entry} (valid : entry.Valid before)
    (within : before.Within after) : entry.Valid after := by
  match entry with
  | .builtin runtime builtin => exact Nat.lt_of_lt_of_le valid within.runtimes
  | .host name procedure =>
      exact ⟨within.hosted.trans valid.1, Procedure.Valid.mono valid.2 within⟩
  | .custom closure body =>
      exact ⟨Nat.lt_of_lt_of_le valid.1 within.scopes,
        valid.2.imp_right fun h => Object.Valid.mono h within⟩
  | .inert datum => exact within.hosted.trans valid

theorem Procedure.Valid.mono {procedure : Procedure} (valid : procedure.Valid before)
    (within : before.Within after) : procedure.Valid after := by
  match procedure with
  | .constant result => exact Object.Valid.mono valid within
  | .argumentCount | .argument _ | .currentScope | .yieldTree | .describeContext | .crash _
  | .refuse .. => trivial

end

theorem Object.Evaluable.mono {object : Object} (valid : object.Evaluable before)
    (within : before.Within after) : object.Evaluable after :=
  valid.imp_right fun h => h.mono within

theorem Context.Valid.mono {context : Context} (valid : context.Valid before)
    (within : before.Within after) : context.Valid after :=
  ⟨Nat.lt_of_lt_of_le valid.scope within.scopes, fun x h =>
    (valid.parameters x h).mono within⟩

theorem Binding.Valid.mono {binding : Binding} (valid : binding.Valid before)
    (within : before.Within after) : binding.Valid after := by
  cases binding with
  | host name procedure => exact Procedure.Valid.mono valid within
  | custom body => exact Object.Evaluable.mono valid within
  | inert datum => trivial

mutual

theorem Blueprint.Valid.mono {blueprint : Blueprint} (valid : blueprint.Valid before)
    (within : before.Within after) : blueprint.Valid after := by
  match blueprint with
  | .mk functions children =>
      exact ⟨fun b h => (valid.1 b h).mono within, Blueprint.ValidAll.mono valid.2 within⟩

theorem Blueprint.ValidAll.mono {children : List (String × Blueprint)}
    (valid : Blueprint.ValidAll before children)
    (within : before.Within after) : Blueprint.ValidAll after children := by
  match children with
  | [] => trivial
  | (_, blueprint) :: rest =>
      exact ⟨Blueprint.Valid.mono valid.1 within, Blueprint.ValidAll.mono valid.2 within⟩

end

theorem Recipe.Valid.mono {recipe : Recipe} (valid : recipe.Valid before)
    (within : before.Within after) : recipe.Valid after := by
  cases recipe with
  | scope blueprint => exact Blueprint.Valid.mono valid within
  | existing id => exact Nat.lt_of_lt_of_le valid within.scopes
  | other kind | crash message => trivial

theorem Source.Valid.mono {source : Source} (valid : source.Valid before)
    (within : before.Within after) : source.Valid after := by
  cases source with
  | scope id => exact Nat.lt_of_lt_of_le valid within.scopes
  | factory made => exact fun runs => Recipe.Valid.mono (valid runs) within
  | invalid => trivial

theorem Module.Valid.mono {module : Module} (valid : module.Valid before)
    (within : before.Within after) : module.Valid after := by
  cases module with
  | ready scope => exact Nat.lt_of_lt_of_le valid within.scopes
  | pending factory => exact fun runs => (valid runs).mono within

end


/-! ### Sound states -/

/-- Everything in a scope is valid, and its parent was there before it. -/
structure Scope.Sound (extent : Extent) (id : ScopeId) (scope : Scope) : Prop where
  functions : ∀ entry ∈ scope.functions, entry.2.Valid extent
  children : ∀ child ∈ scope.children, child.2 < extent.scopes
  returned : scope.returned.Valid extent
  parent : ∀ parent, scope.parent = some parent → parent < id

theorem Scope.Sound.mono {before after : Extent} {id : ScopeId} {scope : Scope}
    (sound : scope.Sound before id) (within : before.Within after) : scope.Sound after id where
  functions entry h := (sound.functions entry h).mono within
  children child h := Nat.lt_of_lt_of_le (sound.children child h) within.scopes
  returned := sound.returned.mono within
  parent := sound.parent

/-- Every scope is sound. -/
def Heap.Sound (hosted : Bool) (runtimes : Nat) (heap : Heap) : Prop :=
  ∀ id, id < heap.scopes.size → (heap.get id).Sound ⟨hosted, heap.scopes.size, runtimes⟩ id

namespace Heap.Sound

variable {hosted : Bool} {runtimes : Nat} {heap : Heap}

theorem alloc (sound : heap.Sound hosted runtimes) {scope : Scope}
    (h : scope.Sound ⟨hosted, heap.scopes.size + 1, runtimes⟩ heap.scopes.size) :
    (heap.alloc scope).2.Sound hosted runtimes := by
  intro id inside
  rw [size_alloc] at inside ⊢
  rcases Nat.lt_succ_iff_lt_or_eq.mp inside with old | rfl
  · rw [get_alloc_of_lt heap scope old]
    exact (sound id old).mono ⟨rfl, Nat.le_succ _, Nat.le_refl _⟩
  · have found := get_alloc_self heap scope
    simp only [Heap.alloc] at found ⊢
    rw [found]
    exact h

theorem modify (sound : heap.Sound hosted runtimes) (id : ScopeId) {change : Scope → Scope}
    (h : ∀ scope : Scope, scope.Sound ⟨hosted, heap.scopes.size, runtimes⟩ id →
      (change scope).Sound ⟨hosted, heap.scopes.size, runtimes⟩ id) :
    (heap.modify id change).Sound hosted runtimes := by
  intro other inside
  rw [size_modify] at inside ⊢
  by_cases same : other = id
  · subst same
    rw [get_modify_self heap other change inside]
    exact h _ (sound other inside)
  · rw [get_modify_of_ne heap change same]
    exact sound other inside

/-- What a name is bound to in any scope is valid. -/
theorem find (sound : heap.Sound hosted runtimes) {id : ScopeId} {name : String} {entry : Entry}
    (h : (heap.get id).functions.find? name = some entry) :
    entry.Valid ⟨hosted, heap.scopes.size, runtimes⟩ := by
  by_cases inside : id < heap.scopes.size
  · exact (sound id inside).functions _ (Table.mem_of_find? h)
  · simp [Heap.get, inside, Table.find?] at h

/-- What a name refers to is valid. -/
theorem resolve (sound : heap.Sound hosted runtimes) {scope : ScopeId} {name : String}
    {entry : Entry} (h : heap.resolve scope name = .ok entry) :
    entry.Valid ⟨hosted, heap.scopes.size, runtimes⟩ := by
  obtain ⟨owner, key, found⟩ := exists_find_of_resolve h
  exact sound.find found

theorem mono (sound : heap.Sound hosted runtimes) {more : Nat} (h : runtimes ≤ more) :
    heap.Sound hosted more :=
  fun id inside => (sound id inside).mono ⟨rfl, Nat.le_refl _, h⟩

end Heap.Sound

namespace Blueprint

theorem entry_sound {hosted : Bool} {runtimes : Nat} {heap : Heap} (hosts : hosted = true)
    (sound : heap.Sound hosted runtimes) {binding : Binding}
    (valid : binding.Valid ⟨hosted, heap.scopes.size, runtimes⟩) :
    (entry heap binding).2.Sound hosted runtimes ∧
      (entry heap binding).1.Valid ⟨hosted, (entry heap binding).2.scopes.size, runtimes⟩ := by
  cases binding with
  | host name procedure => exact ⟨sound, hosts, valid⟩
  | inert datum => exact ⟨sound, hosts⟩
  | custom body =>
      refine ⟨sound.alloc ⟨by simp, by simp, trivial, by simp⟩, ?_⟩
      simp only [entry, Heap.size_alloc]
      exact ⟨Nat.lt_succ_self _, valid.mono ⟨rfl, Nat.le_succ _, Nat.le_refl _⟩⟩

theorem entries_sound {hosted : Bool} {runtimes : Nat} {heap : Heap} (hosts : hosted = true)
    (sound : heap.Sound hosted runtimes) {bindings : List (String × Binding)}
    (valid : ∀ b ∈ bindings, b.2.Valid ⟨hosted, heap.scopes.size, runtimes⟩) :
    (entries heap bindings).2.Sound hosted runtimes ∧
      ∀ e ∈ (entries heap bindings).1,
        e.2.Valid ⟨hosted, (entries heap bindings).2.scopes.size, runtimes⟩ := by
  induction bindings generalizing heap with
  | nil => exact ⟨sound, by simp [entries]⟩
  | cons binding rest ih =>
      obtain ⟨name, binding⟩ := binding
      obtain ⟨sound', first⟩ := entry_sound hosts sound (valid _ (List.mem_cons_self ..))
      have grows := (grows_entry heap binding).size
      have grows' := (grows_entries (entry heap binding).2 rest).size
      obtain ⟨sound'', others⟩ := ih sound' fun b h =>
        (valid b (List.mem_cons_of_mem _ h)).mono ⟨rfl, grows, Nat.le_refl _⟩
      refine ⟨sound'', fun e h => ?_⟩
      rcases List.mem_append.mp h with new | old
      · obtain rfl : e = (name, (entry heap binding).1) := List.mem_singleton.mp new
        exact first.mono ⟨rfl, grows', Nat.le_refl _⟩
      · exact others e old

mutual

/-- Building a valid host module gives a sound heap and a scope in it. -/
theorem build_sound {hosted : Bool} {runtimes : Nat} {heap : Heap} (hosts : hosted = true)
    (sound : heap.Sound hosted runtimes) (blueprint : Blueprint)
    (valid : blueprint.Valid ⟨hosted, heap.scopes.size, runtimes⟩) :
    (blueprint.build heap).2.Sound hosted runtimes ∧
      (blueprint.build heap).1 < (blueprint.build heap).2.scopes.size := by
  match blueprint with
  | .mk functions children =>
      obtain ⟨sound', bound⟩ := entries_sound hosts sound valid.1
      have grows := (grows_entries heap functions).size
      obtain ⟨sound'', built⟩ := buildAll_sound hosts sound' children
        (valid.2.mono ⟨rfl, grows, Nat.le_refl _⟩)
      have grows' := (grows_buildAll (entries heap functions).2 children).size
      refine ⟨sound''.alloc ⟨fun e h => ?_, fun c h => ?_, trivial, by simp⟩, ?_⟩
      · exact (bound e h).mono ⟨rfl, Nat.le_succ_of_le grows', Nat.le_refl _⟩
      · exact Nat.lt_succ_of_lt (built c h)
      · simp [build, Heap.alloc]

/-- Building valid host modules one after the other gives a sound heap and scopes in it. -/
theorem buildAll_sound {hosted : Bool} {runtimes : Nat} {heap : Heap} (hosts : hosted = true)
    (sound : heap.Sound hosted runtimes) (children : List (String × Blueprint))
    (valid : ValidAll ⟨hosted, heap.scopes.size, runtimes⟩ children) :
    (buildAll heap children).2.Sound hosted runtimes ∧
      ∀ c ∈ (buildAll heap children).1, c.2 < (buildAll heap children).2.scopes.size := by
  match children with
  | [] => exact ⟨sound, by simp [buildAll]⟩
  | (name, blueprint) :: rest =>
      obtain ⟨sound', first⟩ := build_sound hosts sound blueprint valid.1
      have grows := (grows_build heap blueprint).size
      obtain ⟨sound'', others⟩ := buildAll_sound hosts sound' rest
        (valid.2.mono ⟨rfl, grows, Nat.le_refl _⟩)
      have grows' := (grows_buildAll (blueprint.build heap).2 rest).size
      refine ⟨sound'', fun c h => ?_⟩
      rcases List.mem_cons.mp h with rfl | old
      · exact Nat.lt_of_lt_of_le first grows'
      · exact others c old

end

end Blueprint

end TreeScript
