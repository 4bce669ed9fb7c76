import TreeScript.Proofs.ErrorReports
import TreeScript.Proofs.Persistence

/-!
# Scope chains

Without a host, a scope either has a parent that is older than itself or is the root of a runtime.
So from every scope the parents lead to such a root after finitely many steps, and a search along
them ends. Every root binds the builtins, and no name is ever lost from a scope; so the name of a
builtin leads somewhere from each scope, even if it has been given another meaning on the way.
-/

namespace TreeScript

/-! ### Climbing and searching -/

namespace Heap

/-- From a scope the parents lead, one after the other, to a scope without a parent. -/
inductive Climb (heap : Heap) : ScopeId → List ScopeId → ScopeId → Prop
  | top {id : ScopeId} : (heap.get id).parent = none → Climb heap id [id] id
  | up {id parent top : ScopeId} {rest : List ScopeId} :
      (heap.get id).parent = some parent → Climb heap parent rest top →
      Climb heap id (id :: rest) top

/-- A search along the parents, which looks at one scope after the other until something is found
or no parent is left. It has a result only if it ends. -/
inductive Search {α : Type} (heap : Heap) (here : ScopeId → Option α) :
    ScopeId → Option α → Prop
  | found {id : ScopeId} {result : α} : here id = some result → Search heap here id (some result)
  | missed {id : ScopeId} : here id = none → (heap.get id).parent = none → Search heap here id none
  | up {id parent : ScopeId} {result : Option α} : here id = none →
      (heap.get id).parent = some parent → Search heap here parent result →
      Search heap here id result

/-- Every parent is older than its children. -/
def Ordered (heap : Heap) : Prop :=
  ∀ id parent, (heap.get id).parent = some parent → parent < id

variable {heap : Heap}

/-- What there is to the chain does not depend on how far it may go, as long as that is enough. -/
theorem Ordered.chainUpTo_eq (ordered : heap.Ordered) {count : Nat} {id : ScopeId}
    (enough : id < count) : heap.chainUpTo count id = heap.chain id := by
  induction id using Nat.strongRecOn generalizing count with
  | ind id ih =>
      cases count with
      | zero => exact absurd enough (Nat.not_lt_zero id)
      | succ more =>
          cases found : (heap.get id).parent with
          | none => simp [chain, chainUpTo, found]
          | some parent =>
              have older := ordered id parent found
              have left := ih parent older (Nat.lt_of_lt_of_le older (Nat.le_of_lt_succ enough))
              have right := ih parent older older
              simp [chain, chainUpTo, found, left, right]

theorem Ordered.chain_of_parent (ordered : heap.Ordered) {id parent : ScopeId}
    (found : (heap.get id).parent = some parent) : heap.chain id = id :: heap.chain parent := by
  have rest := ordered.chainUpTo_eq (ordered id parent found)
  simp [chain, chainUpTo, found] at rest ⊢
  exact rest

theorem chain_of_no_parent {id : ScopeId} (none : (heap.get id).parent = none) :
    heap.chain id = [id] := by
  simp [chain, chainUpTo, none]

/-- The chain of a scope goes all the way up. -/
theorem Ordered.climb (ordered : heap.Ordered) (id : ScopeId) :
    ∃ top, heap.Climb id (heap.chain id) top := by
  induction id using Nat.strongRecOn with
  | ind id ih =>
      cases found : (heap.get id).parent with
      | none => exact ⟨id, chain_of_no_parent found ▸ .top found⟩
      | some parent =>
          obtain ⟨top, above⟩ := ih parent (ordered id parent found)
          rw [ordered.chain_of_parent found]
          exact ⟨top, .up found above⟩

theorem Climb.top_parent {id top : ScopeId} {scopes : List ScopeId}
    (climb : heap.Climb id scopes top) : top ∈ scopes ∧ (heap.get top).parent = none := by
  induction climb with
  | top none => exact ⟨List.mem_cons_self .., none⟩
  | up _ _ ih => exact ⟨List.mem_cons_of_mem _ ih.1, ih.2⟩

/-- Where a climb ends there is a scope if there is one where it begins. -/
theorem Climb.top_lt (ordered : heap.Ordered) {id top : ScopeId} {scopes : List ScopeId}
    (climb : heap.Climb id scopes top) (inside : id < heap.scopes.size) :
    top < heap.scopes.size := by
  induction climb with
  | top _ => exact inside
  | up found _ ih => exact ih (Nat.lt_trans (ordered _ _ found) inside)

/-- A search ends along a climb, with the first thing that is found. -/
theorem Climb.search {α : Type} {id top : ScopeId} {scopes : List ScopeId}
    (climb : heap.Climb id scopes top) (here : ScopeId → Option α) :
    heap.Search here id (scopes.findSome? here) := by
  induction climb with
  | @top id none =>
      cases found : here id with
      | some result => simpa [found] using Search.found found
      | none => simpa [found] using Search.missed found none
  | @up id _ _ _ parent _ ih =>
      cases found : here id with
      | some result => simpa [found] using Search.found found
      | none => simpa [found] using Search.up found parent ih

/-- A search has one result. -/
theorem Search.unique {α : Type} {here : ScopeId → Option α} {id : ScopeId} {a b : Option α}
    (first : heap.Search here id a) (second : heap.Search here id b) : a = b := by
  induction first with
  | found found => cases second <;> simp_all
  | missed free none => cases second <;> simp_all
  | up free parent _ ih =>
      cases second with
      | found found => simp_all
      | missed _ none => simp_all
      | up _ parent' rest =>
          have same := Option.some.inj (parent.symm.trans parent')
          exact ih (same ▸ rest)

/-- The scope itself, if it binds the name. -/
def ownerHere? (heap : Heap) (name : String) (id : ScopeId) : Option ScopeId :=
  if heap.hasLocal id name then some id else none

/-- The child of that name in the scope itself. -/
def childHere? (heap : Heap) (name : String) (id : ScopeId) : Option ScopeId :=
  (heap.get id).children.find? name

/-- The look-up of an owner is a search along the parents that ends. -/
theorem Ordered.search_owner (ordered : heap.Ordered) (id : ScopeId) (name : String)
    (result : Option ScopeId) :
    heap.Search (heap.ownerHere? name) id result ↔ result = heap.owner? id name := by
  obtain ⟨top, climb⟩ := ordered.climb id
  have ends := climb.search (heap.ownerHere? name)
  have same : (heap.chain id).findSome? (heap.ownerHere? name) = heap.owner? id name := by
    unfold owner?
    induction heap.chain id with
    | nil => rfl
    | cons scope rest ih =>
        cases bound : heap.hasLocal scope name <;> simp [ownerHere?, bound, ih]
  rw [same] at ends
  exact ⟨fun search => search.unique ends, fun eq => eq ▸ ends⟩

/-- The look-up of a namespace is a search along the parents that ends. -/
theorem Ordered.search_namespace (ordered : heap.Ordered) (id : ScopeId) (name : String)
    (result : Option ScopeId) :
    heap.Search (heap.childHere? name) id result ↔ result = heap.namespace? id name := by
  obtain ⟨top, climb⟩ := ordered.climb id
  have ends : heap.Search (heap.childHere? name) id (heap.namespace? id name) :=
    climb.search (heap.childHere? name)
  exact ⟨fun search => search.unique ends, fun eq => eq ▸ ends⟩

end Heap

theorem Heap.Sound.ordered {hosted : Bool} {runtimes : Nat} {heap : Heap}
    (sound : heap.Sound hosted runtimes) : heap.Ordered := by
  intro id parent found
  exact (sound id (Heap.lt_of_parent found)).parent parent found

/-! ### Roots -/

namespace State

/-- The scope is the root of a runtime. -/
def IsRoot (state : State) (id : ScopeId) : Prop :=
  ∃ runtime, runtime < state.runtimes.size ∧ (state.runtime runtime).root = id

/-- From a scope that exists the parents lead to the root of a runtime. -/
def Anchored (state : State) (id : ScopeId) : Prop :=
  id < state.heap.scopes.size ∧ ∃ top, state.heap.Climb id (state.heap.chain id) top ∧
    state.IsRoot top

/-- Every scope without a parent is a root, and every root binds the builtins. -/
structure Rooted (state : State) : Prop where
  orphan : ∀ id, id < state.heap.scopes.size → (state.heap.get id).parent = none → state.IsRoot id
  builtins : ∀ id, state.IsRoot id → ∀ builtin : Builtin,
    state.heap.hasLocal id builtin.name = true

variable {state after : State}

theorem IsRoot.mono {id : ScopeId} (isRoot : state.IsRoot id)
    (count : state.runtimes.size ≤ after.runtimes.size)
    (root : ∀ i, i < state.runtimes.size → (after.runtime i).root = (state.runtime i).root) :
    after.IsRoot id := by
  obtain ⟨i, inside, found⟩ := isRoot
  exact ⟨i, Nat.lt_of_lt_of_le inside count, (root i inside).trans found⟩

namespace Rooted

/-- It is enough to look at what is new: scopes without a parent have to be roots, and new roots
have to bind the builtins. -/
theorem extend (rooted : state.Rooted)
    (inside : ∀ i, i < state.runtimes.size → (state.runtime i).root < state.heap.scopes.size)
    (heap : state.heap.Grows after.heap) (count : state.runtimes.size ≤ after.runtimes.size)
    (root : ∀ i, i < state.runtimes.size → (after.runtime i).root = (state.runtime i).root)
    (scopes : ∀ id, state.heap.scopes.size ≤ id → id < after.heap.scopes.size →
      (after.heap.get id).parent = none → after.IsRoot id)
    (runtimes : ∀ i, state.runtimes.size ≤ i → i < after.runtimes.size → ∀ builtin : Builtin,
      after.heap.hasLocal (after.runtime i).root builtin.name = true) :
    after.Rooted where
  orphan id lt none := by
    rcases Nat.lt_or_ge id state.heap.scopes.size with old | new
    · have before : (state.heap.get id).parent = Option.none :=
        (heap.scope id old).parent.symm.trans none
      exact (rooted.orphan id old before).mono count root
    · exact scopes id new lt none
  builtins id isRoot builtin := by
    obtain ⟨i, lt, rfl⟩ := isRoot
    rcases Nat.lt_or_ge i state.runtimes.size with old | new
    · have bound := rooted.builtins _ ⟨i, old, rfl⟩ builtin
      rw [root i old]
      exact heap.hasLocal (inside i old) bound
    · exact runtimes i new lt builtin

/-- Nothing that leaves the number of scopes and runtimes as it is brings a scope to look at. -/
theorem same_size (rooted : state.Rooted)
    (inside : ∀ i, i < state.runtimes.size → (state.runtime i).root < state.heap.scopes.size)
    (heap : state.heap.Grows after.heap) (size : after.heap.scopes.size = state.heap.scopes.size)
    (count : after.runtimes.size = state.runtimes.size)
    (root : ∀ i, i < state.runtimes.size → (after.runtime i).root = (state.runtime i).root) :
    after.Rooted := by
  apply rooted.extend inside heap (Nat.le_of_eq count.symm) root
  · intro id new lt
    omega
  · intro i new lt
    omega

/-- The root of a new runtime binds the builtins. -/
theorem addRuntime (rooted : state.Rooted)
    (inside : ∀ i, i < state.runtimes.size → (state.runtime i).root < state.heap.scopes.size)
    (registry : RegistryId) (directory : Option Place) (output : Option Output) (reports : Bool) :
    (state.addRuntime registry directory output reports).2.Rooted := by
  have grows := state.grows_addRuntime registry directory output reports
  have own := state.runtime_addRuntime_self registry directory output reports
  have scopes : (state.addRuntime registry directory output reports).2.heap.scopes.size =
      state.heap.scopes.size + 1 := by simp [State.addRuntime, allocate]
  have runtimes : (state.addRuntime registry directory output reports).2.runtimes.size =
      state.runtimes.size + 1 := by simp [State.addRuntime, allocate]
  apply rooted.extend inside grows.heap grows.runtimes fun i lt => (grows.runtime i lt).root
  · intro id new lt none
    obtain rfl : id = state.heap.scopes.size := by omega
    exact ⟨state.runtimes.size, by omega, by rw [own]⟩
  · intro i new lt builtin
    obtain rfl : i = state.runtimes.size := by omega
    rw [own]
    have bound : (builtin.name, Entry.builtin state.runtimes.size builtin) ∈
        State.builtins state.runtimes.size := List.mem_map.mpr ⟨builtin, builtin.mem_all, rfl⟩
    have found := Heap.get_alloc_self state.heap { functions := State.builtins state.runtimes.size }
    have table : ((state.addRuntime registry directory output reports).2.heap.get
        state.heap.scopes.size).functions = State.builtins state.runtimes.size :=
      congrArg Scope.functions found
    rw [Heap.hasLocal, table]
    exact Table.has_iff_mem_names.mpr (List.mem_map.mpr ⟨_, bound, rfl⟩)

end Rooted

end State

/-- Only a block, a module and what a host builds bring a scope. -/
theorem Change.size_scopes (state : State) (c : Change) :
    (c.apply state).heap.scopes.size = state.heap.scopes.size ∨
      (∃ parent, c = .openScope parent) ∨
      (∃ importer directory, c = .addRuntime importer directory) ∨
      ∃ blueprint, c = .build blueprint := by
  cases c with
  | openScope parent => exact .inr (.inl ⟨parent, rfl⟩)
  | addRuntime importer directory => exact .inr (.inr (.inl ⟨importer, directory, rfl⟩))
  | build blueprint => exact .inr (.inr (.inr ⟨blueprint, rfl⟩))
  | print runtime text =>
      simp only [Change.apply, State.print]
      split <;> exact .inl rfl
  | register registry name source =>
      simp only [Change.apply]
      split <;> exact .inl rfl
  | write _ _ _ | setReturned _ _ | attach _ _ _ => exact .inl (Heap.size_modify ..)
  | _ => exact .inl rfl

theorem Change.rooted {state : State} (sound : state.Sound false) (rooted : state.Rooted)
    {c : Change} (safe : c.Safe false state) : (c.apply state).Rooted := by
  have grows := c.apply_grows state
  have roots (i : RuntimeId) (lt : i < state.runtimes.size) := (grows.runtime i lt).root
  rcases c.size_scopes state with size | ⟨parent, rfl⟩ | ⟨importer, directory, rfl⟩ | ⟨_, rfl⟩
  · rcases c.size_runtimes state with count | ⟨importer, directory, rfl⟩
    · exact rooted.same_size sound.root_lt grows.heap size count roots
    · exact rooted.addRuntime sound.root_lt ..
  · apply rooted.extend sound.root_lt grows.heap grows.runtimes roots
    · intro id new lt none
      have inside : id < state.heap.scopes.size + 1 := Nat.lt_of_lt_of_eq lt (Heap.size_alloc ..)
      obtain rfl : id = state.heap.scopes.size := by omega
      have found := congrArg Scope.parent (Heap.get_alloc_self state.heap { parent := some parent })
      exact absurd (found.symm.trans none) (by simp)
    · intro i new lt
      exact absurd lt (Nat.not_lt_of_le new)
  · exact rooted.addRuntime sound.root_lt ..
  · cases safe.1

/-- A proper moment without a host leaves every scope below a root. -/
theorem Moment.rooted {first : Nat} {moment : Moment} (rooted : moment.state.Rooted)
    (sound : moment.state.Sound false)
    (proper : moment.deed.Proper false first moment.frames moment.state) :
    moment.nextState.Rooted := by
  have grows := moment.grows
  have roots (i : RuntimeId) (lt : i < moment.state.runtimes.size) := (grows.runtime i lt).root
  obtain ⟨depth, frames, state, deed⟩ := moment
  cases deed with
  | change c => exact Change.rooted sound rooted proper.2.1
  | enter frame =>
      apply rooted.same_size sound.root_lt grows.heap _ (frame.size_enter state) roots
      cases frame <;> rfl
  | leave frame =>
      apply rooted.same_size sound.root_lt grows.heap _ (frame.size_leave state) roots
      cases frame <;> rfl
  | fail runtime cause node =>
      have same : (state.reportError runtime cause).heap = state.heap ∧
          (state.reportError runtime cause).runtimes = state.runtimes := by
        unfold State.reportError
        split <;> exact ⟨rfl, rfl⟩
      exact rooted.same_size sound.root_lt grows.heap (by simp [Moment.nextState, same.1])
        (by simp [Moment.nextState, same.2]) roots
  | visit _ _ _ | halt _ => exact rooted

namespace Session

variable {state : State}

theorem rooted (session : Session false state) : state.Rooted := by
  induction session with
  | start => exact ⟨fun id lt => absurd lt (Nat.not_lt_zero id), by simp [State.IsRoot]⟩
  | @addRegistry state session ih =>
      exact ih.same_size session.sound.root_lt (.refl _) rfl rfl fun _ _ => rfl
  | addRuntime registry directory output reports session _ ih =>
      exact ih.addRuntime session.sound.root_lt registry directory output reports
  | change c _ hosts _ _ => cases hosts
  | @renewJournal state runner session _ ih =>
      have count : (state.renewJournal runner.runtime).runtimes.size = state.runtimes.size := by
        simp [State.renewJournal]
      exact ih.same_size session.sound.root_lt (.refl _) rfl count
        fun i _ => state.view_renewJournal Runtime.root runner.runtime (fun _ _ => rfl) i
  | @prepare state settings runner session _ ih =>
      have count : (runner.prepared settings state).runtimes.size = state.runtimes.size := by
        simp [Runner.prepared, State.renewJournal]
      exact ih.same_size session.sound.root_lt (.refl _) rfl count
        fun i _ => runner.view_prepared Runtime.root settings state (fun _ _ => rfl)
          (fun _ _ => rfl) i
  | @evaluate state settings depth runner place program session valid ih =>
      have run := Runner.run_sound settings session.sound valid depth place program
      have linked := runner.moments_linked settings depth place program state
      exact (linked.invariant (P := fun _ state => state.Rooted)
        (fun m mem rooted => Moment.rooted rooted (run.sound m mem) (run.proper m mem)) ih).1
  | @note state id note session ih =>
      exact ih.same_size session.sound.root_lt (.refl _) rfl rfl fun _ _ => rfl

end Session

/-! ### Below the roots -/

/-- The name of a builtin has no point in it. -/
theorem Builtin.plain_name (builtin : Builtin) : '.' ∉ builtin.name.toList := by
  cases builtin <;> decide

/-- Every parent is older than its child and stays what it is. From every scope the parents lead to
the root of a runtime, and so they do from every scope that a function has for its closure. The
searches for an owner and for a namespace end with what the look-ups give, and the name of each
builtin leads somewhere from every scope. -/
structure State.Grounded (state : State) : Prop where
  ordered : state.heap.Ordered
  fixed : ∀ later, state.Leads later → ∀ id, id < state.heap.scopes.size →
    id < later.heap.scopes.size ∧ (later.heap.get id).parent = (state.heap.get id).parent
  anchored : ∀ id, id < state.heap.scopes.size → state.Anchored id
  closures : ∀ id name closure body,
    (name, .custom closure body) ∈ (state.heap.get id).functions → state.Anchored closure
  owner : ∀ id name result,
    state.heap.Search (state.heap.ownerHere? name) id result ↔ result = state.heap.owner? id name
  namespaces : ∀ id name result,
    state.heap.Search (state.heap.childHere? name) id result ↔
      result = state.heap.namespace? id name
  builtins : ∀ id, id < state.heap.scopes.size → ∀ builtin : Builtin,
    ∃ entry, state.heap.resolve id builtin.name = .ok entry

namespace State

variable {state : State}

/-- The parents of a scope lead to a root, as a scope without a parent is one. -/
theorem Rooted.anchored (rooted : state.Rooted) (ordered : state.heap.Ordered) {id : ScopeId}
    (inside : id < state.heap.scopes.size) : state.Anchored id := by
  obtain ⟨top, climb⟩ := ordered.climb id
  have top_lt := climb.top_lt ordered inside
  have isRoot := rooted.orphan top top_lt climb.top_parent.2
  exact ⟨inside, top, climb, isRoot⟩

/-- From a scope below a root the names of the builtins lead somewhere. -/
theorem Rooted.resolves (rooted : state.Rooted) {id : ScopeId} (anchored : state.Anchored id)
    (builtin : Builtin) : ∃ entry, state.heap.resolve id builtin.name = .ok entry := by
  obtain ⟨-, top, climb, isRoot⟩ := anchored
  have bound := rooted.builtins top isRoot builtin
  have known : (state.heap.owner? id builtin.name).isSome = true :=
    Heap.owner?_isSome_iff.mpr ⟨top, climb.top_parent.1, bound⟩
  exact (Heap.exists_resolve_iff builtin.plain_name).mpr known

theorem Rooted.to_grounded (rooted : state.Rooted) (sound : state.Sound false) :
    state.Grounded where
  ordered := sound.heap.ordered
  fixed later leads id inside := by
    have grows := leads.grows
    exact ⟨Nat.lt_of_lt_of_le inside grows.size, (grows.scope id inside).parent⟩
  anchored id inside := rooted.anchored sound.heap.ordered inside
  closures id name closure body mem := by
    have inside : id < state.heap.scopes.size := by
      rcases Nat.lt_or_ge id state.heap.scopes.size with inside | outside
      · exact inside
      · simp [state.heap.get_of_size_le outside] at mem
    have valid := (sound.heap id inside).functions _ mem
    exact rooted.anchored sound.heap.ordered valid.1
  owner := sound.heap.ordered.search_owner
  namespaces := sound.heap.ordered.search_namespace
  builtins id inside builtin :=
    rooted.resolves (rooted.anchored sound.heap.ordered inside) builtin

end State

/-- The context in which something is evaluated, or for which a builtin is carried out. -/
def Deed.context? : Deed → Option Context
  | .visit _ _ context => some context
  | .enter (.builtin invocation) => some invocation.context
  | _ => none

theorem Deed.Proper.context {hosted : Bool} {first : Nat} {frames : List Frame} {state : State}
    {deed : Deed} {context : Context} (proper : deed.Proper hosted first frames state)
    (found : deed.context? = some context) : context.scope < state.heap.scopes.size := by
  unfold Deed.context? at found
  split at found
  · cases found
    exact proper.1.context.scope
  · cases found
    exact proper.2.1.context.scope
  · cases found

/-- In every state of a session without a host, and at every moment of every further run, all
scopes are below roots: those that are there, those in whose context something is evaluated, and
those that functions have for their closures. -/
theorem Session.grounded {state : State} (session : Session false state) :
    state.Grounded ∧
      ∀ settings depth place program runner, Runner.Valid false state runner →
        ∀ m ∈ runner.moments settings depth place program state,
          state.Leads m.state ∧ m.state.Grounded ∧
            ∀ context, m.deed.context? = some context → m.state.Anchored context.scope ∧
              ∀ builtin : Builtin, ∃ entry,
                m.state.heap.resolve context.scope builtin.name = .ok entry := by
  have grounded := session.rooted.to_grounded session.sound
  refine ⟨grounded, fun settings depth place program runner valid m mem => ?_⟩
  have run := Runner.run_sound settings session.sound valid depth place program
  have linked := runner.moments_linked settings depth place program state
  have rooted := (linked.invariant (P := fun _ state => state.Rooted)
    (fun m mem rooted => Moment.rooted rooted (run.sound m mem) (run.proper m mem))
    session.rooted).2 m mem
  have here := rooted.to_grounded (run.sound m mem)
  refine ⟨(linked.leads.2 m mem).1, here, fun context found => ?_⟩
  have inside := (run.proper m mem).context found
  have anchored := here.anchored context.scope inside
  exact ⟨anchored, rooted.resolves anchored⟩

/-- The module of a file is a root, and the block in the file has a scope below it. -/
theorem Session.grounded_block :
    let files : Files := .ofLines [("lib.yaml", ["type: Block", "body: []"])]
    let state := (Runner.main.evaluateProgram 12 none .callOfModule (.quiet files) .fresh).2
    (state.runtime 1).root = 1 ∧ (state.heap.get 2).parent = some 1 ∧ state.Anchored 2 ∧
      ∀ builtin : Builtin, ∃ entry, state.heap.resolve 2 builtin.name = .ok entry := by
  intro files state
  have session : Session false state :=
    (Session.fresh false).evaluate _ _ _ _ _ (Runner.main_valid false)
  have grounded := (Session.grounded session).1
  have inside : 2 < state.heap.scopes.size := by decide +kernel
  have root : (state.runtime 1).root = 1 := by decide +kernel
  have parent : (state.heap.get 2).parent = some 1 := by decide +kernel
  exact ⟨root, parent, grounded.anchored 2 inside, grounded.builtins 2 inside⟩

end TreeScript
