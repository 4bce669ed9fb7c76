import TreeScript.Proofs.BuiltinCalls
import TreeScript.Proofs.Session

/-!
# Yields without end

The builtin `yield` evaluates the block that the function around was given, in the context of its
call. If that block begins with a call of `yield` itself, this call has the same block to evaluate,
in a scope of its own. So the block cannot hand over to a block further outside: within any limit
its evaluation nests too deep, and nothing but the scopes of the blocks is left behind.
-/

namespace TreeScript

/-! ### A name in a block -/

namespace Heap

variable {heap : Heap} {name : String}

theorem lt_of_find? {count : Nat} {id owner : ScopeId}
    (found : (heap.chainUpTo count id).find? (heap.hasLocal · name) = some owner) :
    id < heap.scopes.size := by
  refine Nat.lt_of_not_le fun outside => ?_
  cases count with
  | zero => cases found
  | succ count =>
      simp [chainUpTo, hasLocal, get_of_size_le heap outside, Table.has, Table.find?] at found

/-- The scope that binds a name is found again after another scope was added, also if more scopes
are looked through. -/
theorem find?_chainUpTo_alloc (other : Scope) {count more : Nat} (le : count ≤ more)
    {id owner : ScopeId}
    (found : (heap.chainUpTo count id).find? (heap.hasLocal · name) = some owner) :
    ((heap.alloc other).2.chainUpTo more id).find? ((heap.alloc other).2.hasLocal · name) =
      some owner := by
  induction count generalizing id more with
  | zero => cases found
  | succ count ih =>
      obtain ⟨more, rfl⟩ : ∃ deeper, more = deeper + 1 := ⟨more - 1, by omega⟩
      have same := get_alloc_of_lt heap other (lt_of_find? found)
      simp only [chainUpTo, List.find?_cons, hasLocal, same] at found ⊢
      cases bound : (heap.get id).functions.has name with
      | true => simpa only [bound] using found
      | false =>
          cases above : (heap.get id).parent with
          | none => simp [bound, above] at found
          | some parent =>
              simp only [bound, above] at found ⊢
              exact ih (Nat.le_of_succ_le_succ le) found

/-- What a name is bound to around a block, it is bound to in the block. -/
theorem function?_openScope {scope : ScopeId} {entry : Entry}
    (found : heap.function? scope name = some entry) :
    (heap.alloc { parent := some scope }).2.function? heap.scopes.size name = some entry := by
  obtain ⟨owner, nearest, bound⟩ := Option.bind_eq_some_iff.mp found
  have own : heap.hasLocal owner name = true := by simp [hasLocal, Table.has, bound]
  let opened := (heap.alloc { parent := some scope }).2
  have fresh : opened.get heap.scopes.size = { parent := some scope } := get_alloc_self heap _
  have free : opened.hasLocal heap.scopes.size name = false := by
    rw [hasLocal, fresh]
    rfl
  have above : (opened.chainUpTo heap.scopes.size scope).find? (opened.hasLocal · name) =
      some owner :=
    find?_chainUpTo_alloc _ (Nat.succ_le_of_lt (lt_of_find? nearest)) nearest
  have nearest' : opened.owner? heap.scopes.size name = some owner := by
    rw [owner?, chain, chainUpTo, fresh]
    simpa only [List.find?_cons, free] using above
  rw [function?, nearest', Option.bind_some, get_alloc_of_lt heap _ (lt_of_hasLocal own), bound]

end Heap

/-! ### Only blocks are opened -/

/-- Nothing but so many blocks were opened between two states: the scopes that were there are as
they were. At most, runtimes are at another node, and lines of the trace were told. -/
structure State.OnlyOpens (settings : Settings) (blocks : Nat) (before after : State) : Prop where
  size : after.heap.scopes.size = before.heap.scopes.size + blocks
  scope : ∀ id, id < before.heap.scopes.size → after.heap.get id = before.heap.get id
  registries : after.registries = before.registries
  journals : after.journals = before.journals
  nextMark : after.nextMark = before.nextMark
  runtimes : after.runtimes.size = before.runtimes.size
  runtime : ∀ id, ∃ node, after.runtime id = { before.runtime id with current := node }
  log : ∃ lines : List String, (settings.tracing = false → lines = []) ∧
    after.log = lines.map Event.traced ++ before.log

namespace State

variable (settings : Settings) (state : State)

protected theorem OnlyOpens.refl : state.OnlyOpens settings 0 state :=
  ⟨rfl, fun _ _ => rfl, rfl, rfl, rfl, rfl, fun _ => ⟨_, rfl⟩, [], fun _ => rfl, rfl⟩

variable {settings}

protected theorem OnlyOpens.trans {a b c : State} {blocks more : Nat}
    (first : a.OnlyOpens settings blocks b) (second : b.OnlyOpens settings more c) :
    a.OnlyOpens settings (blocks + more) c where
  size := by rw [second.size, first.size, Nat.add_assoc]
  scope id inside := by
    rw [second.scope id (first.size ▸ Nat.lt_add_right blocks inside), first.scope id inside]
  registries := second.registries.trans first.registries
  journals := second.journals.trans first.journals
  nextMark := second.nextMark.trans first.nextMark
  runtimes := second.runtimes.trans first.runtimes
  runtime id := by
    obtain ⟨node, early⟩ := first.runtime id
    obtain ⟨node', late⟩ := second.runtime id
    exact ⟨node', by rw [late, early]⟩
  log := traced_trans first.log second.log

variable (settings)

theorem onlyOpens_visit (runtime : RuntimeId) (node : Node) :
    state.OnlyOpens settings 0 ((Change.visit runtime node).apply state) :=
  { OnlyOpens.refl settings state with
    runtimes := size_modifyRuntime ..
    runtime := by
      intro id
      rw [Change.apply, runtime_modifyRuntime]
      split
      next both => exact ⟨node, by rw [both.1]⟩
      next => exact ⟨_, rfl⟩ }

theorem onlyOpens_openScope (parent : ScopeId) :
    state.OnlyOpens settings 1 ((Change.openScope parent).apply state) :=
  { OnlyOpens.refl settings state with
    size := Heap.size_alloc ..
    scope := fun _ inside => Heap.get_alloc_of_lt _ _ inside }

theorem onlyOpens_told (line : String) :
    state.OnlyOpens settings 0 (state.told settings line) := by
  by_cases on : settings.tracing = true
  · rw [told, if_pos on]
    exact { OnlyOpens.refl settings state with log := ⟨["[DBG] " ++ line], by simp [on], rfl⟩ }
  · rw [told, if_neg on]
    exact .refl settings state

variable {settings state}

/-- A call that is entered and left is as if it had never been active. -/
theorem OnlyOpens.leave {runtime : RuntimeId} {node : Node} {blocks : Nat} {ended : State}
    (opens : ((Frame.call runtime node).enter state).OnlyOpens settings blocks ended) :
    state.OnlyOpens settings blocks ((Frame.call runtime node).leave ended) where
  size := opens.size
  scope := opens.scope
  registries := opens.registries
  journals := opens.journals
  nextMark := opens.nextMark
  runtimes := by
    rw [Frame.leave, size_modifyRuntime, opens.runtimes, Frame.enter, size_modifyRuntime]
  runtime id := by
    obtain ⟨last, same⟩ := opens.runtime id
    have size := opens.runtimes
    rw [Frame.enter, size_modifyRuntime] at size
    rw [Frame.enter, runtime_modifyRuntime] at same
    rw [Frame.leave, runtime_modifyRuntime, size]
    by_cases both : id = runtime ∧ runtime < state.runtimes.size
    · rw [if_pos both] at same ⊢
      exact ⟨last, by rw [← both.1, same, both.1]; rfl⟩
    · rw [if_neg both] at same ⊢
      exact ⟨last, same⟩
  log := opens.log

end State

/-! ### Nesting too deep -/

/-- The action nests too deep, and before that nothing but blocks is opened. -/
def Action.Exhausts {α : Type} (action : Action α) (settings : Settings) (blocks : Nat)
    (state : State) : Prop :=
  ∃ after, action settings state = (.error .tooDeep, after) ∧
    state.OnlyOpens settings blocks after

variable {settings : Settings} {state : State} {context : Context} {depth blocks : Nat}

/-- A block nests too deep if its first statement does so in the scope of the block. -/
theorem evaluate_block_exhausts {runtime : RuntimeId} {first : Node} {rest : List Node}
    {origin : Origin}
    (inner : ∀ opened : State,
      opened.heap = (state.heap.alloc { parent := some context.scope }).2 →
      (evaluate depth runtime (.ofNode first)
        { context with scope := state.heap.scopes.size, returnScope := false }).Exhausts settings
          blocks opened) :
    (evaluate (depth + 1) runtime (.tree (.block (first :: rest) origin)) context).Exhausts settings
      (1 + blocks) state := by
  let visited := (Change.visit runtime (.block (first :: rest) origin)).apply state
  let opened := (Change.openScope context.scope).apply visited
  obtain ⟨after, tooDeep, opens⟩ := inner opened rfl
  refine ⟨after, ?_, ?_⟩
  · change (Rule.blockIn runtime context state.heap.scopes.size (first :: rest)).run
      (evaluate depth) settings opened = _
    rw [Rule.blockIn, Rule.run_bind, Rule.each, Rule.run_bind, Rule.run_evaluate, tooDeep]
  · have before : state.OnlyOpens settings 1 opened :=
      (state.onlyOpens_visit settings runtime _).trans (visited.onlyOpens_openScope settings _)
    exact before.trans opens

/-- A call of the builtin nests too deep if the block of the context does so. -/
theorem evaluate_yield_exhausts {runtime owner : RuntimeId} {word : String} {yielded : Node}
    {origin : Origin}
    (resolves : state.heap.resolve context.scope word = .ok (.builtin owner .yield))
    (inner : ∀ started : State, started.heap = state.heap →
      (evaluate depth owner (.ofNode context.yielded) context).Exhausts settings blocks started) :
    (evaluate (depth + 1) runtime (.tree (.call word [] yielded origin)) context).Exhausts settings
      blocks state := by
  let node := Node.call word [] yielded origin
  let visited := (Change.visit runtime node).apply state
  let entered := (Frame.call runtime node).enter visited
  have arguments : (Rule.all runtime context []).run (evaluate depth) settings entered =
      (.ok [], entered) := rfl
  obtain ⟨line, called⟩ := Rule.run_callEntry_builtin_eq arguments owner .yield word yielded
  obtain ⟨after, tooDeep, opens⟩ := inner (entered.told settings line)
    (entered.undisturbed_told settings line).heap
  have found : entered.heap.resolve context.scope word = .ok (.builtin owner .yield) := resolves
  have ran : (resolveAndCall runtime context word [] yielded).run (evaluate depth) settings
      entered = (.error .tooDeep, after) := by
    rw [Rule.run_resolveAndCall found, called, Builtin.run, Rule.run_evaluate, tooDeep]
  have whole := (entered.onlyOpens_told settings line).trans opens
  rw [Nat.zero_add] at whole
  have left := (state.onlyOpens_visit settings runtime node).trans whole.leave
  rw [Nat.zero_add] at left
  refine ⟨_, ?_, left⟩
  rw [evaluate_call_eq, ran]

/-- If the block that a function was given begins with a call of `yield` without arguments, then
every such call in the function nests too deep within any limit, whatever else the block holds. A
block is opened at every second level of it, and nothing else is changed. -/
theorem evaluate_yield_tooDeep {owner : RuntimeId} {inner : Node} {place origin : Origin}
    {rest : List Node}
    (block : context.yielded = .block (.call "yield" [] inner place :: rest) origin)
    (resolves : state.heap.resolve context.scope "yield" = .ok (.builtin owner .yield))
    (depth : Nat) (runtime : RuntimeId) (yielded : Node) (around : Origin) :
    ∃ after, evaluate depth runtime (.tree (.call "yield" [] yielded around)) context settings
      state = (.error .tooDeep, after) ∧ state.OnlyOpens settings (depth / 2) after := by
  induction depth using Nat.strongRecOn generalizing state context runtime yielded around with
  | ind depth ih =>
      -- The call takes one level and its block another one, in which the same call stands again.
      match depth with
      | 0 => exact ⟨state, rfl, .refl settings state⟩
      | depth + 1 =>
          refine evaluate_yield_exhausts resolves fun started same => ?_
          rw [block]
          match depth with
          | 0 => exact ⟨started, rfl, .refl settings started⟩
          | depth + 1 =>
              have blocks : (depth + 1 + 1) / 2 = 1 + depth / 2 := by omega
              rw [blocks]
              refine evaluate_block_exhausts fun opened grown => ?_
              let inBlock : Context :=
                { context with scope := started.heap.scopes.size, returnScope := false }
              have yields : inBlock.yielded =
                  .block (.call "yield" [] inner place :: rest) origin := block
              have again : opened.heap.resolve started.heap.scopes.size "yield" =
                  .ok (.builtin owner .yield) := by
                rw [Heap.resolve_eq_ok_iff (by decide)] at resolves ⊢
                rw [grown, same]
                exact Heap.function?_openScope resolves
              exact ih depth (by omega) yields again owner inner place

/-- A block that is to print something after its yield prints nothing, and leaves two hundred
scopes behind. -/
theorem evaluate_yield_tooDeep_fresh :
    let call := Node.call "yield" [] .absent {}
    let forwarding := Node.block [call, .call "print" [.text "never" {}] .absent {}] {}
    State.fresh.heap.resolve 0 "yield" = .ok (.builtin 0 .yield) ∧
    ∃ after, evaluate defaultDepth 0 (.tree call) { scope := 0, yielded := forwarding }
      (.quiet .empty) State.fresh = (.error .tooDeep, after) ∧
      State.fresh.OnlyOpens (.quiet .empty) 200 after :=
  ⟨rfl, evaluate_yield_tooDeep rfl rfl defaultDepth 0 .absent {}⟩

end TreeScript
