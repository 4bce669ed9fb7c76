import TreeScript.Proofs.Validity

/-!
# Sound states

A state is sound when its heap is, when every runtime has a root scope of its own without a parent,
and when every module leads to a scope. The scope of a loaded file is the root of a runtime that
imports from beside that file. A change is safe when what it adds is valid, and then it keeps the
state sound.
-/

namespace TreeScript

namespace State

/-- What references may lead to in a state. -/
def extent (hosted : Bool) (state : State) : Extent :=
  ⟨hosted, state.heap.scopes.size, state.runtimes.size⟩

theorem Grows.within {before after : State} (grows : before.Grows after) (hosted : Bool) :
    (before.extent hosted).Within (after.extent hosted) :=
  ⟨rfl, grows.heap.size, grows.runtimes⟩

/-- The scope is the root of a runtime that imports from beside the place. -/
def IsModule (state : State) (place : Place) (scope : ScopeId) : Prop :=
  ∃ id, id < state.runtimes.size ∧ (state.runtime id).root = scope ∧
    (state.runtime id).directory = some place.up

theorem IsModule.grows {before after : State} {place : Place} {scope : ScopeId}
    (module : before.IsModule place scope) (grows : before.Grows after) :
    after.IsModule place scope := by
  obtain ⟨id, inside, root, directory⟩ := module
  have stays := grows.runtime id inside
  exact ⟨id, Nat.lt_of_lt_of_le inside grows.runtimes, stays.root.trans root,
    stays.directory.trans directory⟩

/-- Everything in a state is valid. Without a host no module is registered. -/
structure Sound (hosted : Bool) (state : State) : Prop where
  heap : state.heap.Sound hosted state.runtimes.size
  root_lt : ∀ id, id < state.runtimes.size → (state.runtime id).root < state.heap.scopes.size
  root_parent : ∀ id, id < state.runtimes.size →
    (state.heap.get (state.runtime id).root).parent = none
  root_injective : ∀ i j, i < state.runtimes.size → j < state.runtimes.size →
    (state.runtime i).root = (state.runtime j).root → i = j
  registry_lt : ∀ id, id < state.runtimes.size →
    (state.runtime id).registry < state.registries.size
  modules : ∀ id, ∀ entry ∈ (state.registry id).modules,
    hosted = true ∧ entry.2.Valid (state.extent hosted)
  loaded : ∀ id, ∀ entry ∈ (state.registry id).loaded, state.IsModule entry.1 entry.2

theorem sound_empty (hosted : Bool) : ({} : State).Sound hosted where
  heap id h := absurd h (Nat.not_lt_zero id)
  root_lt id h := absurd h (Nat.not_lt_zero id)
  root_parent id h := absurd h (Nat.not_lt_zero id)
  root_injective i _ h := absurd h (Nat.not_lt_zero i)
  registry_lt id h := absurd h (Nat.not_lt_zero id)
  modules id entry h := by simp [registry] at h
  loaded id entry h := by simp [registry] at h

namespace Sound

variable {hosted : Bool} {state : State}

theorem record (sound : state.Sound hosted) (event : Event) : (state.record event).Sound hosted :=
  ⟨sound.heap, sound.root_lt, sound.root_parent, sound.root_injective, sound.registry_lt,
    sound.modules, sound.loaded⟩

theorem mark (sound : state.Sound hosted) (node : Node) : (state.mark node).2.Sound hosted :=
  ⟨sound.heap, sound.root_lt, sound.root_parent, sound.root_injective, sound.registry_lt,
    sound.modules, sound.loaded⟩

theorem reportError (sound : state.Sound hosted) (runtime : RuntimeId) (cause : Cause) :
    (state.reportError runtime cause).Sound hosted := by
  unfold State.reportError
  split
  · exact sound.record _
  · exact sound

theorem print (sound : state.Sound hosted) (runtime : RuntimeId) (text : String) :
    (state.print runtime text).Sound hosted := by
  unfold State.print
  split
  · exact sound.record _
  · exact sound.record _

/-- A runtime may be changed in whatever matters to no scope and no module. -/
theorem modifyRuntime (sound : state.Sound hosted) (id : RuntimeId) {change : Runtime → Runtime}
    (root : ∀ runtime : Runtime, (change runtime).root = runtime.root)
    (registry : ∀ runtime : Runtime, (change runtime).registry = runtime.registry)
    (loaded : ∀ i, ∀ entry ∈ (state.registry i).loaded,
      (state.modifyRuntime id change).IsModule entry.1 entry.2) :
    (state.modifyRuntime id change).Sound hosted := by
  have size := state.size_modifyRuntime id change
  have root := state.view_modifyRuntime Runtime.root id root
  have registry := state.view_modifyRuntime Runtime.registry id registry
  refine ⟨size ▸ sound.heap, ?_, ?_, ?_, ?_, ?_, loaded⟩
  · intro i inside
    rw [root]
    exact sound.root_lt i (size ▸ inside)
  · intro i inside
    rw [root]
    exact sound.root_parent i (size ▸ inside)
  · intro i j hi hj same
    rw [root, root] at same
    exact sound.root_injective i j (size ▸ hi) (size ▸ hj) same
  · intro i inside
    rw [registry]
    exact sound.registry_lt i (size ▸ inside)
  · intro i entry h
    obtain ⟨hosts, valid⟩ := sound.modules i entry h
    exact ⟨hosts, valid.mono ⟨rfl, Nat.le_refl _, Nat.le_of_eq size.symm⟩⟩

theorem work (sound : state.Sound hosted) (id : RuntimeId) {change : Runtime → Runtime}
    (h : ∀ runtime : Runtime, runtime.Stays (change runtime)) :
    (state.modifyRuntime id change).Sound hosted :=
  sound.modifyRuntime id (fun r => (h r).root) (fun r => (h r).registry) fun i entry mem =>
    (sound.loaded i entry mem).grows (state.grows_modifyRuntime id h)

theorem of_heap (sound : state.Sound hosted) {heap : Heap} (grows : state.heap.Grows heap)
    (h : heap.Sound hosted state.runtimes.size) : ({ state with heap } : State).Sound hosted := by
  refine ⟨h, ?_, ?_, sound.root_injective, sound.registry_lt, ?_, sound.loaded⟩
  · exact fun id inside => Nat.lt_of_lt_of_le (sound.root_lt id inside) grows.size
  · exact fun id inside =>
      (grows.scope _ (sound.root_lt id inside)).parent.trans (sound.root_parent id inside)
  · intro id entry h
    obtain ⟨hosts, valid⟩ := sound.modules id entry h
    exact ⟨hosts, valid.mono ((state.grows_of_heap grows).within hosted)⟩

theorem setRegistry (sound : state.Sound hosted) (id : RegistryId) {registry : Registry}
    (modules : ∀ entry ∈ registry.modules, hosted = true ∧ entry.2.Valid (state.extent hosted))
    (loaded : ∀ entry ∈ registry.loaded, state.IsModule entry.1 entry.2) :
    (state.setRegistry id registry).Sound hosted := by
  refine ⟨sound.heap, sound.root_lt, sound.root_parent, sound.root_injective, ?_, ?_, ?_⟩
  · intro i inside
    rw [size_setRegistry]
    exact sound.registry_lt i inside
  · intro other entry h
    rcases registry_setRegistry_cases state id other registry with eq | ⟨-, eq⟩ <;> rw [eq] at h
    · exact sound.modules other entry h
    · exact modules entry h
  · intro other entry h
    rcases registry_setRegistry_cases state id other registry with eq | ⟨-, eq⟩ <;> rw [eq] at h
    · exact sound.loaded other entry h
    · exact loaded entry h

/-- A new runtime has a new root scope, in which the builtins of that runtime are bound. -/
theorem addRuntime (sound : state.Sound hosted) {registry : RegistryId}
    (inside : registry < state.registries.size) (directory : Option Place)
    (output : Option Output) (reports : Bool) :
    (state.addRuntime registry directory output reports).2.Sound hosted := by
  have grows := state.grows_addRuntime registry directory output reports
  have new := state.runtime_addRuntime_self registry directory output reports
  have size : (state.addRuntime registry directory output reports).2.runtimes.size =
      state.runtimes.size + 1 := by simp [State.addRuntime, allocate]
  have sizes : (state.addRuntime registry directory output reports).2.heap.scopes.size =
      state.heap.scopes.size + 1 := by simp [State.addRuntime, allocate]
  have cases (id : RuntimeId)
      (h : id < (state.addRuntime registry directory output reports).2.runtimes.size) :
      id < state.runtimes.size ∨ id = state.runtimes.size :=
    Nat.lt_succ_iff_lt_or_eq.mp (Nat.lt_of_lt_of_eq h size)
  refine ⟨?_, ?_, ?_, ?_, ?_, ?_, ?_⟩
  · rw [size]
    refine (sound.heap.mono (Nat.le_succ _)).alloc ⟨fun e h => ?_, by simp, trivial, by simp⟩
    obtain ⟨builtin, -, rfl⟩ := List.mem_map.mp h
    exact Nat.lt_succ_self _
  · intro id h
    rcases cases id h with old | rfl
    · rw [(grows.runtime id old).root]
      exact Nat.lt_of_lt_of_le (sound.root_lt id old) grows.heap.size
    · rw [new, sizes]
      exact Nat.lt_succ_self _
  · intro id h
    rcases cases id h with old | rfl
    · rw [(grows.runtime id old).root]
      exact (grows.heap.scope _ (sound.root_lt id old)).parent.trans (sound.root_parent id old)
    · rw [new]
      exact congrArg Scope.parent (Heap.get_alloc_self state.heap _)
  · intro i j hi hj same
    rcases cases i hi with oldi | rfl <;> rcases cases j hj with oldj | rfl
    · rw [(grows.runtime i oldi).root, (grows.runtime j oldj).root] at same
      exact sound.root_injective i j oldi oldj same
    · rw [(grows.runtime i oldi).root, new] at same
      exact absurd same (Nat.ne_of_lt (sound.root_lt i oldi))
    · rw [(grows.runtime j oldj).root, new] at same
      exact absurd same.symm (Nat.ne_of_lt (sound.root_lt j oldj))
    · rfl
  · intro id h
    rcases cases id h with old | rfl
    · rw [(grows.runtime id old).registry]
      exact sound.registry_lt id old
    · rw [new]
      exact inside
  · intro id entry h
    obtain ⟨hosts, valid⟩ := sound.modules id entry h
    exact ⟨hosts, valid.mono (grows.within hosted)⟩
  · exact fun id entry h => (sound.loaded id entry h).grows grows

end Sound

end State

/-! ### Safe changes -/

/-- What a change adds to a state is valid. -/
def Change.Safe (hosted : Bool) (state : State) : Change → Prop
  | openScope parent => parent < state.heap.scopes.size
  | write slot closure body =>
      slot.scope < state.heap.scopes.size ∧ closure < state.heap.scopes.size ∧
        body.Evaluable (state.extent hosted)
  | setReturned _ returned => returned.Valid (state.extent hosted)
  | attach _ _ child => child < state.heap.scopes.size
  | addRuntime importer _ => importer < state.runtimes.size
  | keep _ place scope => state.IsModule place scope
  | register _ _ source => hosted = true ∧ source.Valid (state.extent hosted)
  | build blueprint => hosted = true ∧ blueprint.Valid (state.extent hosted)
  | settle _ _ scope => hosted = true ∧ scope < state.heap.scopes.size
  | visit .. | trace _ | print .. | mark _ | begin _ | finish _ | runFactory _ => True

theorem Registry.mem_register {registry changed : Registry} {name : String} {source : Source}
    {extent : Extent} (h : registry.register name source = .ok changed)
    (valid : source.Valid extent) {entry : String × Module} (mem : entry ∈ changed.modules) :
    entry ∈ registry.modules ∨ entry.2.Valid extent := by
  cases source with
  | invalid => cases h
  | scope id | factory made =>
      simp only [register, Except.ok.injEq] at h
      subst h
      split at mem
      · exact .inl mem
      · rcases Table.mem_insert mem with new | old
        · exact .inr (by rw [new]; exact valid)
        · exact .inl old

/-- A safe change keeps a state sound. -/
theorem Change.Safe.sound {hosted : Bool} {state : State} (sound : state.Sound hosted) {c : Change}
    (safe : c.Safe hosted state) : (c.apply state).Sound hosted := by
  cases c with
  | visit runtime node =>
      simp only [Change.apply]
      exact sound.work runtime fun _ => rfl
  | trace line => exact sound.record _
  | openScope parent =>
      refine sound.of_heap (state.heap.grows_alloc _)
        (sound.heap.alloc ⟨by simp, by simp, trivial, ?_⟩)
      rintro _ ⟨⟩
      exact safe
  | write slot closure body =>
      refine sound.of_heap (state.heap.grows_bind ..) (sound.heap.modify slot.scope ?_)
      refine fun scope old => ⟨fun e h => ?_, old.children, old.returned, old.parent⟩
      rcases Table.mem_insert h with new | mem
      · rw [new]
        exact safe.2
      · exact old.functions e mem
  | setReturned scope returned =>
      refine sound.of_heap (state.heap.grows_setReturned ..) (sound.heap.modify scope ?_)
      exact fun _ old => ⟨old.functions, old.children, safe, old.parent⟩
  | attach scope name child =>
      refine sound.of_heap (state.heap.grows_attach ..) (sound.heap.modify scope ?_)
      refine fun scope old => ⟨old.functions, fun c h => ?_, old.returned, old.parent⟩
      rcases Table.mem_insert h with new | mem
      · rw [new]
        exact safe
      · exact old.children c mem
  | print runtime text => exact sound.print runtime text
  | mark node => exact sound.mark node
  | addRuntime importer directory => exact sound.addRuntime (sound.registry_lt importer safe) ..
  | begin place => exact sound.record _
  | finish place => exact sound.record _
  | keep runtime place scope =>
      refine sound.setRegistry _ (sound.modules _) fun entry h => ?_
      rcases List.mem_append.mp h with old | new
      · exact sound.loaded _ entry old
      · obtain rfl := List.mem_singleton.mp new
        exact safe
  | register registry name source =>
      simp only [Change.apply]
      split
      · rename_i changed h
        refine sound.setRegistry registry (fun entry mem => ?_) ?_
        · rcases Registry.mem_register h safe.2 mem with old | valid
          · exact sound.modules registry entry old
          · exact ⟨safe.1, valid⟩
        · rw [Registry.loaded_register h]
          exact sound.loaded registry
      · exact sound
  | runFactory label => exact sound.record _
  | build blueprint =>
      exact sound.of_heap (blueprint.grows_build _)
        (Blueprint.build_sound safe.1 sound.heap blueprint safe.2).1
  | settle registry name scope =>
      refine sound.setRegistry registry (fun entry mem => ?_) (sound.loaded registry)
      rcases Table.mem_insert mem with new | old
      · rw [new]
        exact safe
      · exact sound.modules registry entry old

theorem State.Sound.enter {hosted : Bool} {state : State} (sound : state.Sound hosted)
    (frame : Frame) : (frame.enter state).Sound hosted := by
  cases frame with
  | call runtime node =>
      simp only [Frame.enter]
      exact sound.work runtime fun _ => rfl
  | builtin invocation => exact sound
  | loading runtime place => exact sound.setRegistry _ (sound.modules _) (sound.loaded _)

theorem State.Sound.leave {hosted : Bool} {state : State} (sound : state.Sound hosted)
    (frame : Frame) : (frame.leave state).Sound hosted := by
  cases frame with
  | call runtime node =>
      simp only [Frame.leave]
      exact sound.work runtime fun _ => rfl
  | builtin invocation => exact sound
  | loading runtime place => exact sound.setRegistry _ (sound.modules _) (sound.loaded _)

end TreeScript
