import TreeScript.Proofs.Session

/-!
# Names stay known

Whatever is done after a state, no scope is lost, none gets another parent, and no name is lost from
a table. So a name without a point that refers to something from a scope goes on to do so, though it
may come to refer to something else. Of a dotted name this need not be true, as the namespace before
the point may be replaced by another one.
-/

namespace TreeScript

/-! ### What growth means for look-ups -/

namespace Heap

/-- A name has an owner if some scope of the chain binds it. -/
theorem owner?_isSome_iff {heap : Heap} {id : ScopeId} {name : String} :
    (heap.owner? id name).isSome = true ↔
      ∃ owner ∈ heap.chain id, heap.hasLocal owner name = true := by
  simp [owner?, List.find?_isSome]

/-- The entry of a name is that of its owner. -/
theorem function?_isSome (heap : Heap) (id : ScopeId) (name : String) :
    (heap.function? id name).isSome = (heap.owner? id name).isSome := by
  unfold function?
  cases found : heap.owner? id name with
  | none => rfl
  | some owner =>
      have bound := List.find?_some found
      change ((heap.get owner).functions.find? name).isSome = true
      exact bound

/-- A name without a point is looked up along the chain alone. -/
theorem exists_resolve_iff {heap : Heap} {scope : ScopeId} {name : String}
    (plain : '.' ∉ name.toList) :
    (∃ entry, heap.resolve scope name = .ok entry) ↔ (heap.owner? scope name).isSome = true := by
  have single : (pathSegments name).reverse = [name] := by
    simp [pathSegments, pathSegments.go_of_not_mem plain]
  rw [← function?_isSome]
  cases found : heap.function? scope name with
  | some entry => simp [resolve, found]
  | none => simp [resolve, found, single]

/-- A scope that binds a name above another one, whatever is known of its chain, still does so after
growth. Up to that scope no parent has changed, as no scope without parents binds it. -/
theorem Grows.bound_in_chainUpTo {before after : Heap} (grows : before.Grows after) {name : String}
    {count : Nat} {id : ScopeId}
    (bound : ∃ owner ∈ before.chainUpTo count id, before.hasLocal owner name = true) :
    ∃ owner ∈ after.chainUpTo count id, after.hasLocal owner name = true := by
  induction count generalizing id with
  | zero => simp [chainUpTo] at bound
  | succ count ih =>
      obtain ⟨owner, mem, local_⟩ := bound
      rcases List.mem_cons.mp mem with here | above
      · have inside := lt_of_hasLocal local_
        have kept := grows.hasLocal inside local_
        exact ⟨owner, here ▸ List.mem_cons_self .., kept⟩
      · cases parent : (before.get id).parent with
        | none => simp [parent] at above
        | some up =>
            have inside := lt_of_parent parent
            have same : (after.get id).parent = some up :=
              (grows.scope id inside).parent.trans parent
            rw [parent] at above
            obtain ⟨owner', mem', kept⟩ := ih ⟨owner, above, local_⟩
            refine ⟨owner', ?_, kept⟩
            simp [chainUpTo, same, mem']

/-- A name that has an owner keeps having one. -/
theorem Grows.owner?_isSome {before after : Heap} (grows : before.Grows after) {id : ScopeId}
    {name : String} (known : (before.owner? id name).isSome = true) :
    (after.owner? id name).isSome = true :=
  owner?_isSome_iff.mpr (grows.bound_in_chainUpTo (owner?_isSome_iff.mp known))

/-- A name without a point that leads somewhere keeps leading somewhere. -/
theorem Grows.exists_resolve {before after : Heap} (grows : before.Grows after) {scope : ScopeId}
    {name : String} (plain : '.' ∉ name.toList)
    (known : ∃ entry, before.resolve scope name = .ok entry) :
    ∃ entry, after.resolve scope name = .ok entry := by
  rw [exists_resolve_iff plain] at known ⊢
  exact grows.owner?_isSome known

end Heap

/-! ### Later states -/

/-- One state leads to another through any number of moments of evaluations and through what a host
does between them. -/
inductive State.Leads : State → State → Prop
  | same (state : State) : Leads state state
  | moment {before : State} (m : Moment) : Leads before m.state → Leads before m.nextState
  | addRegistry {before state : State} : Leads before state → Leads before state.addRegistry.2
  | addRuntime {before state : State} (registry : RegistryId) (directory : Option Place)
      (output : Option Output) (reports : Bool) : Leads before state →
      Leads before (state.addRuntime registry directory output reports).2
  | renewJournal {before state : State} (id : RuntimeId) :
      Leads before state → Leads before (state.renewJournal id)
  | prepare {before state : State} (settings : Settings) (runner : Runner) :
      Leads before state → Leads before (runner.prepared settings state)
  | note {before state : State} (id : RuntimeId) (note : Note) :
      Leads before state → Leads before (state.note id note)

namespace State.Leads

variable {a b c : State}

protected theorem trans (first : a.Leads b) (second : b.Leads c) : a.Leads c := by
  induction second with
  | same => exact first
  | moment m _ ih => exact ih.moment m
  | addRegistry _ ih => exact ih.addRegistry
  | addRuntime registry directory output reports _ ih =>
      exact ih.addRuntime registry directory output reports
  | renewJournal id _ ih => exact ih.renewJournal id
  | prepare settings runner _ ih => exact ih.prepare settings runner
  | note id note _ ih => exact ih.note id note

/-- Whatever comes later, no scope is lost and each one has grown. -/
theorem grows (leads : a.Leads b) : a.heap.Grows b.heap := by
  induction leads with
  | same => exact .refl _
  | moment m _ ih => exact ih.trans m.grows.heap
  | addRuntime registry directory output reports _ ih =>
      exact ih.trans (State.grows_addRuntime _ registry directory output reports).heap
  | addRegistry _ ih | renewJournal _ _ ih | prepare _ _ _ ih | note _ _ _ ih => exact ih

end State.Leads

/-- The states at linked moments follow each other. -/
theorem Linked.leads {frames frames' : List Frame} {state state' : State} {moments : List Moment}
    (linked : Linked frames state moments frames' state') :
    state.Leads state' ∧ ∀ m ∈ moments, state.Leads m.state ∧ m.nextState.Leads state' :=
  linked.related .same .trans fun m _ => (State.Leads.same m.state).moment m

/-! ### What later states keep -/

/-- In a state the builtin `exists` gives true for an object. -/
def State.Confirms (state : State) (context : Context) (object : Object) : Prop :=
  ∀ runtime evaluator settings,
    (Builtin.runExists runtime context object).run evaluator settings state =
      (.ok (.value (.boolean true)), state)

/-- `exists` holds of a memory and of a text whose name some scope of the chain binds. -/
theorem State.confirms_iff {state : State} {context : Context} {object : Object} :
    state.Confirms context object ↔
      ∃ name, (state.heap.owner? context.scope name).isSome = true ∧
        (object = .value (.text name) ∨ ∃ slot, object = .value (.memory name slot)) := by
  constructor
  · intro confirms
    have outcome := confirms 0 (evaluate 0) (.quiet .empty)
    unfold Builtin.runExists at outcome
    split at outcome
    · rename_i name slot
      refine ⟨name, ?_, .inr ⟨slot, rfl⟩⟩
      simpa [Rule.inspect, Rule.run] using outcome
    · rename_i name
      refine ⟨name, ?_, .inl rfl⟩
      simpa [Rule.inspect, Rule.run] using outcome
    · simp [Rule.run] at outcome
  · rintro ⟨name, known, shape⟩ runtime evaluator settings
    rcases shape with rfl | ⟨slot, rfl⟩ <;>
      simp [Builtin.runExists, Rule.inspect, Rule.run, known]

/-- What a later state keeps of a state: every scope with its parent and with its names in their
order, and that names without a point lead somewhere and that `exists` holds. -/
structure State.Remembered (before after : State) : Prop where
  scope : ∀ id, id < before.heap.scopes.size →
    id < after.heap.scopes.size ∧ (before.heap.get id).Grows (after.heap.get id)
  resolves : ∀ scope name, '.' ∉ name.toList →
    (∃ entry, before.heap.resolve scope name = .ok entry) →
      ∃ entry, after.heap.resolve scope name = .ok entry
  confirms : ∀ context object, before.Confirms context object → after.Confirms context object

theorem State.Leads.remembered {before after : State} (leads : before.Leads after) :
    before.Remembered after where
  scope id inside :=
    ⟨Nat.lt_of_lt_of_le inside leads.grows.size, leads.grows.scope id inside⟩
  resolves scope name plain known := leads.grows.exists_resolve plain known
  confirms context object holds := by
    obtain ⟨name, known, shape⟩ := State.confirms_iff.mp holds
    have known' := leads.grows.owner?_isSome known
    exact State.confirms_iff.mpr ⟨name, known', shape⟩

/-- Whether the evaluation of an object ends with a result or early, its moments and its end come
after the state it began in, and whatever comes after a state keeps all that was known in it. -/
theorem evaluate_remembered (settings : Settings) (depth : Nat) (runtime : RuntimeId)
    (object : Object) (context : Context) (frames : List Frame) (state : State) :
    state.Remembered (evaluate depth runtime object context settings state).2 ∧
      (∀ m ∈ partMoments settings depth runtime object context frames state,
        state.Leads m.state ∧
          m.nextState.Leads (evaluate depth runtime object context settings state).2) ∧
      ∀ before after : State, before.Leads after → before.Remembered after := by
  have linked := partMoments_linked settings depth runtime object context frames state
  obtain ⟨ended, middle⟩ := linked.leads
  exact ⟨ended.remembered, middle, fun _ _ leads => leads.remembered⟩

end TreeScript
