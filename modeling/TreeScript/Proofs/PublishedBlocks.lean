import TreeScript.Proofs.Persistence
import TreeScript.Proofs.BuiltinCalls

/-!
# Published blocks

`obj` evaluates a block and makes its scope a namespace of the scope of the call. It does so
completely or not at all: the namespace is there when every statement of the block has been
evaluated, and if the block ends early, `obj` writes nothing.
-/

namespace TreeScript

/-! ### A namespace and its members -/

/-- A scope that was not there before has become the namespace of that name of another scope, which
is its parent. Its members are what it binds itself: unless a dotted name is bound as such, it leads
to the member or else nowhere. -/
structure Heap.Publishes (before after : Heap) (scope : ScopeId) (name : String) (space : ScopeId) :
    Prop where
  fresh : before.scopes.size ≤ space
  inside : space < after.scopes.size
  parent : (after.get space).parent = some scope
  child : (after.get scope).children.find? name = some space
  member : ∀ member : String, '.' ∉ member.toList →
    (∀ id ∈ after.chain scope, after.hasLocal id (name ++ "." ++ member) = false) →
    after.resolve scope (name ++ "." ++ member) =
      match (after.get space).functions.find? member with
      | some entry => .ok entry
      | none => .error (.unknownFunction (name ++ "." ++ member))

namespace Heap

variable {heap : Heap} {scope space : ScopeId} {name : String}

/-- A name that no scope of the chain binds has no entry. -/
theorem function?_eq_none (free : ∀ id ∈ heap.chain scope, heap.hasLocal id name = false) :
    heap.function? scope name = none := by
  rw [← Option.not_isSome_iff_eq_none, function?_isSome, owner?_isSome_iff]
  rintro ⟨owner, mem, bound⟩
  simp [free owner mem] at bound

/-- The scope itself is the nearest one of its chain. -/
theorem namespace?_of_child (child : (heap.get scope).children.find? name = some space) :
    heap.namespace? scope name = some space := by
  simp [namespace?, chain, chainUpTo, child]

/-- A scope that was opened under another one and has grown is published by being attached to it. -/
theorem Grows.publishes {before ended : Heap} (inside : scope < before.scopes.size)
    (grows : (before.alloc { parent := some scope }).2.Grows ended) (name : String) :
    before.Publishes (ended.attach scope name before.scopes.size) scope name
      before.scopes.size := by
  have opened : before.scopes.size < (before.alloc { parent := some scope }).2.scopes.size := by
    simp
  have inside' : scope < ended.scopes.size :=
    Nat.lt_of_lt_of_le (Nat.lt_trans inside opened) grows.size
  have child : ((ended.attach scope name before.scopes.size).get scope).children.find? name =
      some before.scopes.size := by
    rw [attach, get_modify_self ended scope _ inside']
    exact Table.find?_insert_self ..
  refine
    { fresh := Nat.le_refl _
      inside := ?_
      parent := ?_
      child := child
      member := fun member plain free =>
        resolve_member (namespace?_of_child child) plain (function?_eq_none free) }
  · rw [attach, size_modify]
    exact Nat.lt_of_lt_of_le opened grows.size
  · have kept : ((ended.attach scope name before.scopes.size).get before.scopes.size).parent =
        (ended.get before.scopes.size).parent := by
      rw [attach, view_modify Scope.parent ended scope]
      exact fun _ => rfl
    rw [kept, (grows.scope _ opened).parent]
    exact congrArg Scope.parent (get_alloc_self before _)

end Heap

/-! ### What `obj` does -/

/-- A block whose scope is asked for evaluates its statements in a new scope and gives that. -/
theorem evaluate_block_scope (settings : Settings) (state : State) (runtime : RuntimeId)
    (context : Context) (depth : Nat) (body : List Node) (origin : Origin) :
    ∃ opened, opened.heap = (state.heap.alloc { parent := some context.scope }).2 ∧
      evaluate (depth + 1) runtime (.tree (.block body origin)) { context with returnScope := true }
        settings state =
        match (Rule.each runtime
          { context with scope := state.heap.scopes.size, returnScope := false } body).run
            (evaluate depth) settings opened with
        | (.ok _, ended) => (.ok (.scope state.heap.scopes.size), ended)
        | (.error reason, ended) => (.error reason, ended) := by
  refine ⟨(Change.openScope context.scope).apply
    ((Change.visit runtime (.block body origin)).apply state), rfl, ?_⟩
  change (Rule.blockIn runtime { context with returnScope := true } state.heap.scopes.size body).run
    (evaluate depth) settings _ = _
  rw [Rule.blockIn, Rule.run_bind]
  generalize Rule.run (evaluate depth) (Rule.each _ _ body) settings _ = outcome
  rcases outcome with ⟨reason | _, ended⟩ <;> rfl

variable {settings : Settings} {state : State} {runtime : RuntimeId} {context : Context}

/-- A block is what it is evaluated to itself. -/
theorem Rule.run_reduceToBlock (evaluator : Evaluator) (body : List Node) (origin : Origin) :
    (reduceToBlock runtime context (.tree (.block body origin))).run evaluator settings state =
      (.ok (.block body origin), state) := by
  have block (limit : Int) (remaining : Nat) : reduceToBlockWithin runtime context limit remaining
      (.tree (.block body origin)) = done (.block body origin) := by
    unfold reduceToBlockWithin
    rfl
  simp only [reduceToBlock, bind_eq, Rule.bind, inspect, run, block]

/-- Given a memory and a block, `obj` evaluates the block and attaches the scope that it gives. -/
theorem Builtin.run_runObj (evaluator : Evaluator) (name : String) (slot : Option Slot)
    (body : List Node) (origin : Origin) :
    (runObj runtime context (.value (.memory name slot)) (.block body origin)).run evaluator
      settings state =
      match evaluator runtime (.tree (.block body origin)) { context with returnScope := true }
        settings state with
      | (.ok (.scope space), ended) =>
          (.ok .absent, (Change.attach context.scope name space).apply ended)
      | (.ok _, ended) => (.ok .absent, ended)
      | (.error reason, ended) => (.error reason, ended) := by
  change (Rule.reduceToBlock runtime context (.tree (.block body origin)) >>= fun block =>
    Rule.evaluate runtime (.tree block) { context with returnScope := true } >>= _).run evaluator
      settings state = _
  rw [Rule.run_bind, Rule.run_reduceToBlock]
  simp only [Rule.run_bind, Rule.run_evaluate]
  generalize evaluator runtime (.tree (.block body origin)) { context with returnScope := true }
    settings state = outcome
  rcases outcome with ⟨reason | x, ended⟩
  · rfl
  · cases x <;> rfl

/-- Called with a memory and a block, `obj` evaluates the block unless that nests too deep. If the
block ends early, then `obj` does so for the same reason and writes nothing. Otherwise every
statement was evaluated in a scope opened for the block, and `obj` returns with that scope published
under the name. -/
theorem evaluate_obj_publishes {depth : Nat} {word name : String} {owner : RuntimeId}
    {body : List Node} {place start origin : Origin} {outcome : Except Interrupt Object}
    {after : State}
    (inside : context.scope < state.heap.scopes.size)
    (resolves : state.heap.resolve context.scope word = .ok (.builtin owner .obj))
    (evaluated : evaluate depth runtime
      (.tree (.call word [.memory name place] (.block body start) origin)) context settings state =
        (outcome, after)) :
    (depth < 2 ∧ outcome = .error .tooDeep ∧ state.Undisturbed settings after) ∨
      ∃ deeper started result ended, depth = deeper + 2 ∧ state.Undisturbed settings started ∧
        evaluate (deeper + 1) owner (.tree (.block body start)) { context with returnScope := true }
          settings started = (result, ended) ∧
        (∀ reason, result = .error reason →
          outcome = .error reason ∧ ended.Undisturbed settings after) ∧
        ∀ x, result = .ok x →
          let space := state.heap.scopes.size
          outcome = .ok .absent ∧
          (∃ opened, opened.heap = (state.heap.alloc { parent := some context.scope }).2 ∧
            (Rule.each owner { context with scope := space, returnScope := false } body).run
              (evaluate deeper) settings opened = (.ok (), ended)) ∧
          (ended.modifyHeap (·.attach context.scope name space)).Undisturbed settings after ∧
          state.heap.Publishes after.heap context.scope name space := by
  rcases evaluate_builtin resolves evaluated with
    early | ⟨deeper, started, last, rfl, quiet, ran, left⟩
  · exact .inl early
  · obtain ⟨opened, fresh, block⟩ :=
      evaluate_block_scope settings started owner context deeper body start
    have same : started.heap = state.heap := quiet.heap
    rw [same] at fresh block
    change (Builtin.runObj owner context (.value (.memory name (some ⟨context.scope, name⟩)))
      (.block body start)).run (evaluate (deeper + 1)) settings started = _ at ran
    rw [Builtin.run_runObj, block] at ran
    -- All that can still go wrong is a statement of the block.
    cases statements : (Rule.each owner
        { context with scope := state.heap.scopes.size, returnScope := false } body).run
          (evaluate deeper) settings opened with
    | mk result ended =>
        rw [statements] at block ran
        cases result with
        | error reason =>
            obtain ⟨rfl, rfl⟩ := Prod.mk.inj ran
            exact .inr ⟨deeper, started, _, _, rfl, quiet, block, by simp [left], by simp⟩
        | ok done =>
            obtain ⟨rfl, rfl⟩ := Prod.mk.inj ran
            have grows := (Rule.run_grows deeper (Rule.each owner
              { context with scope := state.heap.scopes.size, returnScope := false } body)
              settings opened).heap
            rw [statements, fresh] at grows
            have published := grows.publishes inside name
            refine .inr ⟨deeper, started, _, _, rfl, quiet, block, by simp, fun x _ => ?_⟩
            refine ⟨rfl, ⟨opened, fresh, statements⟩, left, ?_⟩
            rwa [left.heap]

/-- A block that binds `x` becomes the namespace `a.b` of the root scope. -/
theorem evaluate_obj_publishes_dotted :
    let body := [Node.call "defI" [.memory "x" {}] (.number (.int 1) {}) {}]
    let call := Node.call "obj" [.memory "a.b" {}] (.block body {}) {}
    let run := evaluate 9 0 (.tree call) { scope := 0 } (.quiet .empty) State.fresh
    State.fresh.heap.Publishes run.2.heap 0 "a.b" 1 := by
  intro body call run
  have evaluated : evaluate 9 0 (.tree call) { scope := 0 } (.quiet .empty) State.fresh =
      (run.1, run.2) := rfl
  have returns : run.1.isOk = true := by decide +kernel
  have inside : 0 < State.fresh.heap.scopes.size := by decide
  have resolves : State.fresh.heap.resolve 0 "obj" = .ok (.builtin 0 .obj) := rfl
  rcases evaluate_obj_publishes inside resolves evaluated with
    early | ⟨deeper, started, result, ended, -, -, -, failed, published⟩
  · exact absurd early.1 (by decide)
  · cases result with
    | error reason =>
        rw [(failed reason rfl).1] at returns
        cases returns
    | ok x => exact (published x rfl).2.2.2

end TreeScript
