import TreeScript.Proofs.Session
import TreeScript.Proofs.BuiltinCalls

/-!
# Constants

`defI` and `set` store the literal that their yield subtree is evaluated to, and change nothing else
after that. A call of the name gives the literal back, from the scope of the definition and from
blocks opened in it. Such a call leaves nothing behind, so it can be repeated.
-/

namespace TreeScript

/-! ### Where a name is found -/

namespace Heap

/-- The parents of a scope lead to an outer one that binds the name, and no scope before that binds
it. -/
inductive Finds (heap : Heap) (name : String) (outer : ScopeId) : ScopeId → Prop
  | here : heap.hasLocal outer name = true → Finds heap name outer outer
  | up {id parent : ScopeId} : heap.hasLocal id name = false →
      (heap.get id).parent = some parent → parent < id → Finds heap name outer parent →
      Finds heap name outer id

/-- Blocks were opened, and nothing else has happened to the heap. The scope is the outer one, or it
is that of a block opened in it or in such a block. -/
inductive Opens (heap : Heap) (outer : ScopeId) : Heap → ScopeId → Prop
  | here : Opens heap outer heap outer
  | block {opened : Heap} {scope : ScopeId} : Opens heap outer opened scope →
      Opens heap outer (opened.alloc { parent := some scope }).2 opened.scopes.size
  | beside {opened : Heap} {scope : ScopeId} (parent : ScopeId) : Opens heap outer opened scope →
      Opens heap outer (opened.alloc { parent := some parent }).2 scope

/-- Only the entry of a slot may have changed. -/
structure AlikeBut (before after : Heap) (slot : Slot) : Prop where
  size : after.scopes.size = before.scopes.size
  scope : ∀ id, after.get id = { before.get id with functions := (after.get id).functions }
  entry : ∀ other : Slot, other ≠ slot →
    (after.get other.scope).functions.find? other.name =
      (before.get other.scope).functions.find? other.name

variable {heap opened : Heap} {name : String} {outer scope : ScopeId}

/-- The name is looked up where it is found. -/
theorem Finds.function?_eq (finds : heap.Finds name outer scope) :
    heap.function? scope name = (heap.get outer).functions.find? name := by
  have owner (count : Nat) (enough : scope < count) :
      (heap.chainUpTo count scope).find? (heap.hasLocal · name) = some outer := by
    -- The chain may have more scopes than its place; a step up uses one, and parents are older.
    induction finds generalizing count with
    | here bound =>
        cases count with
        | zero => exact absurd enough (Nat.not_lt_zero _)
        | succ more => simp [chainUpTo, bound]
    | @up id parent free above older _ ih =>
        cases count with
        | zero => exact absurd enough (Nat.not_lt_zero _)
        | succ more =>
            have rest := ih more (Nat.lt_of_lt_of_le older (Nat.le_of_lt_succ enough))
            simpa [chainUpTo, free, above] using rest
  have found : heap.owner? scope name = some outer := owner (scope + 1) (Nat.lt_succ_self scope)
  simp [function?, found]

/-- A scope that is opened elsewhere does not change where a name is found. -/
theorem Finds.alloc (finds : heap.Finds name outer scope) (inside : scope < heap.scopes.size)
    (other : Scope) : (heap.alloc other).2.Finds name outer scope := by
  induction finds with
  | here bound =>
      refine .here ?_
      rwa [hasLocal, get_alloc_of_lt heap other inside]
  | up free above older _ ih =>
      have same := get_alloc_of_lt heap other inside
      refine .up ?_ (same ▸ above) older (ih (Nat.lt_trans older inside))
      rwa [hasLocal, same]

/-- Opening blocks keeps the scopes that were there. -/
theorem Opens.kept (opens : heap.Opens outer opened scope) {id : ScopeId}
    (inside : id < heap.scopes.size) :
    id < opened.scopes.size ∧ opened.get id = heap.get id := by
  have alloc {before : Heap} (other : Scope)
      (kept : id < before.scopes.size ∧ before.get id = heap.get id) :
      id < (before.alloc other).2.scopes.size ∧ (before.alloc other).2.get id = heap.get id := by
    rw [size_alloc, get_alloc_of_lt before other kept.1]
    exact ⟨Nat.lt_succ_of_lt kept.1, kept.2⟩
  induction opens with
  | here => exact ⟨inside, rfl⟩
  | block _ ih => exact alloc _ ih
  | beside _ _ ih => exact alloc _ ih

theorem Opens.lt_size (opens : heap.Opens outer opened scope) (inside : outer < heap.scopes.size) :
    scope < opened.scopes.size := by
  induction opens with
  | here => exact inside
  | block _ ih => simp
  | beside _ _ ih =>
      rw [size_alloc]
      exact Nat.lt_succ_of_lt ih

/-- From blocks that are opened in the outer scope, its name is found there. -/
theorem Opens.finds (opens : heap.Opens outer opened scope) (inside : outer < heap.scopes.size)
    (bound : heap.hasLocal outer name = true) : opened.Finds name outer scope := by
  induction opens with
  | here => exact .here bound
  | @block opened scope opens ih =>
      have below := opens.lt_size inside
      have fresh : (opened.alloc { parent := some scope }).2.get opened.scopes.size =
          { parent := some scope } := get_alloc_self opened _
      refine .up ?_ (by rw [fresh]) below (ih.alloc below _)
      rw [hasLocal, fresh]
      rfl
  | beside parent opens ih => exact ih.alloc (opens.lt_size inside) _

theorem find?_bind_self (heap : Heap) {id : ScopeId} (inside : id < heap.scopes.size)
    (name : String) (entry : Entry) :
    ((heap.bind id name entry).get id).functions.find? name = some entry := by
  rw [bind, get_modify_self heap id _ inside]
  exact Table.find?_insert_self ..

/-- From blocks that are opened in the outer scope, a name leads to what was bound to it there. -/
theorem Opens.resolve_bind (inside : outer < heap.scopes.size) {entry : Entry}
    (opens : (heap.bind outer name entry).Opens outer opened scope) :
    opened.resolve scope name = .ok entry := by
  have stored := heap.find?_bind_self inside name entry
  have bound : (heap.bind outer name entry).hasLocal outer name = true := by
    simp [hasLocal, Table.has, stored]
  have inside' : outer < (heap.bind outer name entry).scopes.size := by rwa [bind, size_modify]
  have same := (opens.kept inside').2
  rw [resolve, (opens.finds inside' bound).function?_eq, same, stored]

/-- A scope stays as it is, or it is the one that gets the entry. -/
theorem get_bind_cases (heap : Heap) (id other : ScopeId) (name : String) (entry : Entry) :
    (heap.bind id name entry).get other = heap.get other ∨
      other = id ∧ (heap.bind id name entry).get other =
        { heap.get other with functions := (heap.get other).functions.insert name entry } := by
  by_cases same : other = id
  · subst same
    rcases Nat.lt_or_ge other heap.scopes.size with inside | outside
    · exact .inr ⟨rfl, heap.get_modify_self other _ inside⟩
    · have outside' : (heap.bind other name entry).scopes.size ≤ other := by
        rwa [bind, size_modify]
      exact .inl ((get_of_size_le _ outside').trans (heap.get_of_size_le outside).symm)
  · exact .inl (heap.get_modify_of_ne _ same)

theorem alikeBut_bind (heap : Heap) (slot : Slot) (entry : Entry) :
    heap.AlikeBut (heap.bind slot.scope slot.name entry) slot where
  size := by rw [bind, size_modify]
  scope id := by
    rcases heap.get_bind_cases slot.scope id slot.name entry with same | ⟨-, changed⟩
    · rw [same]
    · rw [changed]
  entry other different := by
    rcases heap.get_bind_cases slot.scope other.scope slot.name entry with same | ⟨here, changed⟩
    · rw [same]
    · have apart : other.name ≠ slot.name := fun named =>
        different (congr (congrArg Slot.mk here) named)
      rw [changed]
      exact Table.find?_insert_of_ne _ _ apart

end Heap

/-! ### Calls of a constant -/

section

variable {settings : Settings} {state : State} {context : Context} {name : String}
variable {closure : ScopeId} {value : Value}

/-- A call of a constant without arguments gives it back and leaves nothing behind. -/
theorem evaluate_constant
    (resolves : state.heap.resolve context.scope name = .ok (.custom closure (.value value)))
    (runtime : RuntimeId) (depth : Nat) (yielded : Node) (origin : Origin) :
    ∃ last, evaluate (depth + 2) runtime (.tree (.call name [] yielded origin)) context settings
      state = (.ok (.value value), last) ∧ state.Undisturbed settings last := by
  obtain ⟨entered, outcome, ended, undisturbed, body, whole⟩ :=
    evaluate_call settings state runtime context (depth + 1) name [] yielded origin
  rw [Rule.run_resolveAndCall (undisturbed.heap ▸ resolves)] at body
  obtain ⟨told, traced, quiet⟩ : ∃ told,
      (traceCustom name context.parameters true).run (evaluate (depth + 1)) settings entered =
        (.ok (), told) ∧ entered.Undisturbed settings told :=
    Rule.run_trace _ settings entered _
  have reached : (callEntry runtime context name [] yielded (.custom closure (.value value))).run
      (evaluate (depth + 1)) settings entered = (.ok (.value value), told) := by
    change (traceCustom name context.parameters true >>= _).run _ settings entered = _
    rw [Rule.run_bind, traced]
    rfl
  obtain ⟨rfl, rfl⟩ := Prod.mk.inj (reached.symm.trans body)
  exact ⟨_, whole, (undisturbed.trans quiet).trans (told.undisturbed_leave_call settings _ _)⟩

/-- Repeated calls of a constant give it back each time. -/
theorem Rule.run_all_constant
    (resolves : state.heap.resolve context.scope name = .ok (.custom closure (.value value)))
    (runtime : RuntimeId) (depth count : Nat) (yielded : Node) (origin : Origin) :
    ∃ last, (all runtime context (List.replicate count (.call name [] yielded origin))).run
      (TreeScript.evaluate (depth + 2)) settings state =
        (.ok (List.replicate count (.value value)), last) ∧ state.Undisturbed settings last := by
  induction count generalizing state with
  | zero => exact ⟨state, rfl, .refl settings state⟩
  | succ count ih =>
      obtain ⟨middle, first, quiet⟩ := evaluate_constant resolves runtime depth yielded origin
      obtain ⟨last, others, quiet'⟩ := ih (quiet.heap ▸ resolves)
      refine ⟨last, ?_, quiet.trans quiet'⟩
      change (Rule.evaluate runtime (.tree (.call name [] yielded origin)) context >>= _).run _
        settings state = _
      rw [run_bind, run_evaluate, first]
      change (all runtime context (List.replicate count (.call name [] yielded origin)) >>= _).run _
        settings middle = _
      rw [run_bind, others]
      rfl

end

/-! ### Storing a constant -/

/-- A literal was stored in a slot, and nothing else was done. From the scope of the slot and from
blocks opened in it, each call of the name gives the literal and leaves nothing behind. -/
structure State.Stores (settings : Settings) (before after : State) (slot : Slot) (value : Value) :
    Prop where
  alike : before.heap.AlikeBut after.heap slot
  entry : (after.heap.get slot.scope).functions.find? slot.name =
    some (.custom slot.scope (.value value))
  rest : before.Undisturbed settings { after with heap := before.heap }
  reads : ∀ (inner : State) (caller : Context),
    after.heap.Opens slot.scope inner.heap caller.scope →
    ∀ runtime depth count yielded origin, ∃ last,
      (Rule.all runtime caller (List.replicate count (.call slot.name [] yielded origin))).run
        (evaluate (depth + 2)) settings inner =
          (.ok (List.replicate count (.value value)), last) ∧ inner.Undisturbed settings last

/-- Binding a slot to a literal stores the literal, whatever runtimes do after that. -/
theorem State.stores_bind {settings : Settings} {before after : State} {slot : Slot} {value : Value}
    (inside : slot.scope < before.heap.scopes.size)
    (quiet : (before.modifyHeap (·.bind slot.scope slot.name
      (.custom slot.scope (.value value)))).Undisturbed settings after) :
    before.Stores settings after slot value where
  alike := by
    rw [quiet.heap]
    exact before.heap.alikeBut_bind slot _
  entry := by
    rw [quiet.heap]
    exact before.heap.find?_bind_self inside slot.name _
  rest := { quiet with heap := rfl }
  reads inner caller opens runtime depth count yielded origin := by
    rw [quiet.heap] at opens
    exact Rule.run_all_constant (opens.resolve_bind inside) runtime depth count yielded origin

namespace Builtin

variable {settings : Settings} {state ended : State} {runtime : RuntimeId} {context : Context}
variable {depth : Nat} {name : String}

/-- If the slot of a memory is free, that is found without any change. -/
theorem run_freshSlot {slot found : Slot}
    (returns : (freshSlot runtime context (.value (.memory name (some slot)))).run
      (TreeScript.evaluate (depth + 1)) settings state = (.ok found, ended)) :
    found = slot ∧ ended = state := by
  simp only [freshSlot, Rule.run_bind, Rule.run_evaluate, evaluate_value, Action.pure_apply,
    Rule.memoryOf, Rule.pure_eq, Rule.inspect, Rule.run, Option.getD_some] at returns
  split at returns
  · cases returns
  · cases returns
    exact ⟨rfl, rfl⟩

/-- If the name of a memory is bound, that is found without any change. -/
theorem run_boundName {evaluator : Evaluator} {slot : Option Slot} {found : String}
    (returns : (boundName runtime context (.value (.memory name slot))).run evaluator settings
      state = (.ok found, ended)) :
    found = name ∧ ended = state := by
  simp only [boundName, Rule.run_bind, Rule.memoryOf, Rule.pure_eq, Rule.inspect, Rule.run]
    at returns
  split at returns
  · cases returns
    exact ⟨rfl, rfl⟩
  · cases returns

/-- What `defI` and `set` have in common: if they return, the yield subtree was evaluated to a
literal, and then that was bound to the name in the scope of the call. -/
theorem run_stores {builtin : Builtin} {yielded : Node} {x : Object}
    (kind : builtin = .defineNow ∨ builtin = .set)
    (returns : (builtin.run runtime context [.value (.memory name (some ⟨context.scope, name⟩))]
      yielded).run (TreeScript.evaluate (depth + 1)) settings state = (.ok x, ended)) :
    ∃ value reduced,
      (Rule.reduce runtime context (.ofNode yielded)).run (TreeScript.evaluate (depth + 1)) settings
        state = (.ok value, reduced) ∧
      x = .absent ∧
      ended = reduced.modifyHeap
        (·.bind context.scope name (.custom context.scope (.value value))) := by
  rcases kind with rfl | rfl
  · obtain ⟨slot, looked, found, rest⟩ := Rule.run_bind_ok returns
    obtain ⟨rfl, rfl⟩ := run_freshSlot found
    obtain ⟨value, reduced, literal, stored⟩ := Rule.run_bind_ok rest
    cases stored
    exact ⟨value, reduced, literal, rfl, rfl⟩
  · obtain ⟨bound, looked, found, rest⟩ := Rule.run_bind_ok returns
    obtain ⟨rfl, rfl⟩ := run_boundName found
    obtain ⟨value, reduced, literal, stored⟩ := Rule.run_bind_ok rest
    cases stored
    exact ⟨value, reduced, literal, rfl, rfl⟩

end Builtin

/-- If `defI` or `set` returns, then the yield subtree was evaluated to a literal, and all that was
done after that is to store this literal under the name in the scope of the call. -/
theorem evaluate_stores {settings : Settings} {state after : State} {runtime owner : RuntimeId}
    {context : Context} {depth : Nat} {word name : String} {builtin : Builtin} {yielded : Node}
    {place origin : Origin} {x : Object}
    (inside : context.scope < state.heap.scopes.size)
    (kind : builtin = .defineNow ∨ builtin = .set)
    (resolves : state.heap.resolve context.scope word = .ok (.builtin owner builtin))
    (returns : evaluate depth runtime (.tree (.call word [.memory name place] yielded origin))
      context settings state = (.ok x, after)) :
    ∃ deeper started value reduced, depth = deeper + 2 ∧ state.Undisturbed settings started ∧
      (Rule.reduce owner context (.ofNode yielded)).run (evaluate (deeper + 1)) settings started =
        (.ok value, reduced) ∧
      x = .absent ∧ reduced.Stores settings after ⟨context.scope, name⟩ value := by
  rcases evaluate_builtin resolves returns with
    ⟨-, early, -⟩ | ⟨deeper, started, ended, deep, quiet, ran, left⟩
  · cases early
  · obtain ⟨value, reduced, literal, absent, rfl⟩ := Builtin.run_stores kind ran
    have grows := (Rule.run_grows (deeper + 1) (Rule.reduce owner context (.ofNode yielded))
      settings started).heap.size
    rw [literal, quiet.heap] at grows
    have inside' : context.scope < reduced.heap.scopes.size := Nat.lt_of_lt_of_le inside grows
    exact ⟨deeper, started, value, reduced, deep, quiet, literal, absent,
      State.stores_bind inside' left⟩

/-- A memory that is stored under a dotted name is given back with its slot, and so is a number to
which a name that is bound is set. -/
theorem evaluate_stores_memory :
    let ask (word : String) (yielded : Node) (state : State) :=
      evaluate 5 0 (.tree (.call word [.memory "a.b" {}] yielded {})) { scope := 0 }
        (.quiet .empty) state
    let bound := State.fresh.modifyHeap (·.bind 0 "a.b" (.custom 0 (.value (.boolean true))))
    let defined := ask "defI" (.memory "m" {}) State.fresh
    let changed := ask "set" (.number (.int 2) {}) bound
    (∃ reduced : State,
      reduced.Stores (.quiet .empty) defined.2 ⟨0, "a.b"⟩ (.memory "m" (some ⟨0, "m"⟩))) ∧
    ∃ reduced : State,
      reduced.Stores (.quiet .empty) changed.2 ⟨0, "a.b"⟩ (.number (.int 2)) := by
  intro ask bound defined changed
  have returns {word yielded state} (ends : (ask word yielded state).1.isOk = true) :
      ∃ x, ask word yielded state = (.ok x, (ask word yielded state).2) := by
    cases result : (ask word yielded state).1 with
    | error reason =>
        rw [result] at ends
        cases ends
    | ok x => exact ⟨x, Prod.ext result rfl⟩
  constructor
  · have inside : 0 < State.fresh.heap.scopes.size := by decide
    have resolves : State.fresh.heap.resolve 0 "defI" = .ok (.builtin 0 .defineNow) := rfl
    obtain ⟨x, returns⟩ := returns (show defined.1.isOk = true by decide +kernel)
    obtain ⟨deeper, started, value, reduced, -, -, literal, -, stores⟩ :=
      evaluate_stores inside (.inl rfl) resolves returns
    -- The memory is the literal that it is evaluated to.
    cases literal
    exact ⟨_, stores⟩
  · have inside : 0 < bound.heap.scopes.size := by decide
    have resolves : bound.heap.resolve 0 "set" = .ok (.builtin 0 .set) := rfl
    obtain ⟨x, returns⟩ := returns (show changed.1.isOk = true by decide +kernel)
    obtain ⟨deeper, started, value, reduced, -, -, literal, -, stores⟩ :=
      evaluate_stores inside (.inr rfl) resolves returns
    cases literal
    exact ⟨_, stores⟩

end TreeScript
