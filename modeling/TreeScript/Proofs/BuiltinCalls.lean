import TreeScript.Proofs.Growth

/-!
# Calls of builtins

Around the builtin that a call leads to, only little happens: the call becomes active, its arguments
are evaluated, and a line of the trace may be told. If the one argument is a memory, nothing of that
is left behind, and so what such a call does is what the builtin does.
-/

namespace TreeScript

/-! ### Nothing left behind -/

/-- Nothing is left behind between two states: at most, runtimes are at another node or have other
calls active, and lines of the trace were told. -/
structure State.Undisturbed (settings : Settings) (before after : State) : Prop where
  heap : after.heap = before.heap
  registries : after.registries = before.registries
  journals : after.journals = before.journals
  nextMark : after.nextMark = before.nextMark
  runtimes : after.runtimes.size = before.runtimes.size
  runtime : ∀ id, (before.runtime id).Stays (after.runtime id)
  log : ∃ lines : List String, (settings.tracing = false → lines = []) ∧
    after.log = lines.map Event.traced ++ before.log

namespace State

variable (settings : Settings)

protected theorem Undisturbed.refl (state : State) : state.Undisturbed settings state :=
  ⟨rfl, rfl, rfl, rfl, rfl, fun _ => .refl _, [], fun _ => rfl, rfl⟩

variable {settings}

/-- Lines of the trace that are told after others are lines of the trace all together. -/
theorem traced_trans {a b c : List Event}
    (first : ∃ lines : List String, (settings.tracing = false → lines = []) ∧
      b = lines.map Event.traced ++ a)
    (second : ∃ lines : List String, (settings.tracing = false → lines = []) ∧
      c = lines.map Event.traced ++ b) :
    ∃ lines : List String, (settings.tracing = false → lines = []) ∧
      c = lines.map Event.traced ++ a := by
  obtain ⟨early, silent, rfl⟩ := first
  obtain ⟨late, silent', rfl⟩ := second
  refine ⟨late ++ early, fun off => ?_, ?_⟩
  · rw [silent off, silent' off, List.append_nil]
  · rw [List.map_append, List.append_assoc]

protected theorem Undisturbed.trans {a b c : State} (first : a.Undisturbed settings b)
    (second : b.Undisturbed settings c) : a.Undisturbed settings c where
  heap := second.heap.trans first.heap
  registries := second.registries.trans first.registries
  journals := second.journals.trans first.journals
  nextMark := second.nextMark.trans first.nextMark
  runtimes := second.runtimes.trans first.runtimes
  runtime id := (first.runtime id).trans (second.runtime id)
  log := traced_trans first.log second.log

variable (settings) (state : State)

theorem undisturbed_modifyRuntime (id : RuntimeId) {change : Runtime → Runtime}
    (stays : ∀ runtime : Runtime, runtime.Stays (change runtime)) :
    state.Undisturbed settings (state.modifyRuntime id change) :=
  { Undisturbed.refl settings state with
    runtimes := size_modifyRuntime ..
    runtime := by
      intro other
      by_cases same : other = id
      · subst same
        rcases Nat.lt_or_ge other state.runtimes.size with inside | outside
        · rw [runtime_modifyRuntime_self state change inside]
          exact stays _
        · rw [modifyRuntime_of_size_le state change outside]
          exact .refl _
      · rw [runtime_modifyRuntime_of_ne state change same]
        exact .refl _ }

theorem undisturbed_visit (runtime : RuntimeId) (node : Node) :
    state.Undisturbed settings ((Change.visit runtime node).apply state) := by
  simp only [Change.apply]
  exact state.undisturbed_modifyRuntime settings runtime fun _ => rfl

theorem undisturbed_enter_call (runtime : RuntimeId) (node : Node) :
    state.Undisturbed settings ((Frame.call runtime node).enter state) := by
  simp only [Frame.enter]
  exact state.undisturbed_modifyRuntime settings runtime fun _ => rfl

theorem undisturbed_leave_call (runtime : RuntimeId) (node : Node) :
    state.Undisturbed settings ((Frame.call runtime node).leave state) := by
  simp only [Frame.leave]
  exact state.undisturbed_modifyRuntime settings runtime fun _ => rfl

/-- The state in which a line of the trace was told, if the settings ask for a trace. -/
def told (line : String) : State :=
  if settings.tracing then (Change.trace line).apply state else state

theorem undisturbed_told (line : String) :
    state.Undisturbed settings (state.told settings line) := by
  by_cases on : settings.tracing = true
  · rw [told, if_pos on]
    exact { Undisturbed.refl settings state with log := ⟨["[DBG] " ++ line], by simp [on], rfl⟩ }
  · rw [told, if_neg on]
    exact .refl settings state

end State

theorem Rule.run_trace_eq (evaluator : Evaluator) (settings : Settings) (state : State)
    (line : String) :
    (trace line).run evaluator settings state = (.ok (), state.told settings line) := by
  by_cases on : settings.tracing = true
  · simp [trace, bind_eq, Rule.bind, inspect, run, on, perform, State.told]
  · simp [trace, bind_eq, Rule.bind, inspect, run, on, pure_eq, State.told]

theorem Rule.run_trace (evaluator : Evaluator) (settings : Settings) (state : State)
    (line : String) :
    ∃ told, (trace line).run evaluator settings state = (.ok (), told) ∧
      state.Undisturbed settings told :=
  ⟨_, run_trace_eq .., state.undisturbed_told settings line⟩

/-! ### What a call does -/

section

variable (settings : Settings) (state : State) (runtime : RuntimeId) (context : Context)

/-- A call is noted and active while its name is resolved and what follows from that is done. -/
theorem evaluate_call_eq (depth : Nat) (name : String) (parameters : List Node) (yielded : Node)
    (origin : Origin) :
    let node := Node.call name parameters yielded origin
    let entered := (Frame.call runtime node).enter ((Change.visit runtime node).apply state)
    let ended := (resolveAndCall runtime context name parameters yielded).run (evaluate depth)
      settings entered
    evaluate (depth + 1) runtime (.tree node) context settings state =
      (ended.1, (Frame.call runtime node).leave ended.2) := by
  intro node entered ended
  have body : (resolveAndCall runtime context name parameters yielded).run (evaluate depth) settings
      entered = (ended.1, ended.2) := rfl
  change (nodeRule runtime context node).run (evaluate depth) settings
    ((Change.visit runtime node).apply state) = _
  simp only [node, nodeRule, Rule.inside, Rule.run]
  rw [body]
  cases ended.1 <;> rfl

theorem evaluate_call (depth : Nat) (name : String) (parameters : List Node) (yielded : Node)
    (origin : Origin) :
    ∃ entered outcome ended, state.Undisturbed settings entered ∧
      (resolveAndCall runtime context name parameters yielded).run (evaluate depth) settings
        entered = (outcome, ended) ∧
      evaluate (depth + 1) runtime (.tree (.call name parameters yielded origin)) context settings
        state =
        (outcome, (Frame.call runtime (.call name parameters yielded origin)).leave ended) := by
  let node := Node.call name parameters yielded origin
  let visited := (Change.visit runtime node).apply state
  have undisturbed : state.Undisturbed settings ((Frame.call runtime node).enter visited) :=
    (state.undisturbed_visit settings runtime node).trans
      (visited.undisturbed_enter_call settings runtime node)
  exact ⟨_, _, _, undisturbed, rfl, evaluate_call_eq ..⟩

/-- A memory is evaluated to the memory of its name in the scope around. -/
theorem Rule.run_all_memory (depth : Nat) (name : String) (origin : Origin) :
    ∃ visited, state.Undisturbed settings visited ∧
      (all runtime context [.memory name origin]).run (TreeScript.evaluate (depth + 1)) settings
        state = (.ok [.value (.memory name (some ⟨context.scope, name⟩))], visited) :=
  ⟨_, state.undisturbed_visit settings runtime (.memory name origin), rfl⟩

end

variable {settings : Settings} {state : State} {runtime : RuntimeId} {context : Context}

/-- A call that leads to an entry does what is done for the entry. -/
theorem Rule.run_resolveAndCall {evaluator : Evaluator} {name : String} {entry : Entry}
    (resolves : state.heap.resolve context.scope name = .ok entry) (parameters : List Node)
    (yielded : Node) :
    (resolveAndCall runtime context name parameters yielded).run evaluator settings state =
      (callEntry runtime context name parameters yielded entry).run evaluator settings state := by
  simp only [resolveAndCall, bind_eq, Rule.bind, inspect, run, resolves]

/-- A builtin is carried out after the arguments of the call are evaluated and a line of the trace
is told. -/
theorem Rule.run_callEntry_builtin_eq {evaluator : Evaluator} {parameters : List Node}
    {arguments : List Object} {evaluated : State}
    (before : (all runtime context parameters).run evaluator settings state =
      (.ok arguments, evaluated))
    (owner : RuntimeId) (builtin : Builtin) (word : String) (yielded : Node) :
    ∃ line, (callEntry runtime context word parameters yielded (.builtin owner builtin)).run
        evaluator settings state =
      (builtin.run owner context arguments yielded).run evaluator settings
        (evaluated.told settings line) := by
  obtain ⟨line, traced⟩ : ∃ line, (traceProcedure word arguments).run evaluator settings
      evaluated = (.ok (), evaluated.told settings line) := ⟨_, run_trace_eq ..⟩
  refine ⟨line, ?_⟩
  rw [callEntry, run_bind, before]
  simp only [run_bind, traced, inside, run, Invocation.rule, Frame.enter]
  rcases (builtin.run owner context arguments yielded).run evaluator settings
    (evaluated.told settings line) with ⟨reason | x, ended⟩ <;> rfl

theorem Rule.run_callEntry_builtin {evaluator : Evaluator} {parameters : List Node}
    {arguments : List Object} {evaluated : State}
    (before : (all runtime context parameters).run evaluator settings state =
      (.ok arguments, evaluated))
    (owner : RuntimeId) (builtin : Builtin) (word : String) (yielded : Node) :
    ∃ started, evaluated.Undisturbed settings started ∧
      (callEntry runtime context word parameters yielded (.builtin owner builtin)).run evaluator
        settings state =
        (builtin.run owner context arguments yielded).run evaluator settings started := by
  obtain ⟨line, same⟩ := run_callEntry_builtin_eq before owner builtin word yielded
  exact ⟨_, evaluated.undisturbed_told settings line, same⟩

/-- A call of a builtin with a memory nests too deep for its parts, or else it does what the builtin
does with the memory of that name in the scope of the call. Nothing else that it does is left
behind. -/
theorem evaluate_builtin {depth : Nat} {word name : String} {owner : RuntimeId} {builtin : Builtin}
    {yielded : Node} {place origin : Origin} {outcome : Except Interrupt Object} {after : State}
    (resolves : state.heap.resolve context.scope word = .ok (.builtin owner builtin))
    (evaluated : evaluate depth runtime (.tree (.call word [.memory name place] yielded origin))
      context settings state = (outcome, after)) :
    (depth < 2 ∧ outcome = .error .tooDeep ∧ state.Undisturbed settings after) ∨
      ∃ deeper started ended, depth = deeper + 2 ∧ state.Undisturbed settings started ∧
        (builtin.run owner context [.value (.memory name (some ⟨context.scope, name⟩))]
          yielded).run (evaluate (deeper + 1)) settings started = (outcome, ended) ∧
        ended.Undisturbed settings after := by
  cases depth with
  | zero =>
      obtain ⟨rfl, rfl⟩ := Prod.mk.inj evaluated
      exact .inl ⟨by decide, rfl, .refl settings state⟩
  | succ depth =>
      obtain ⟨entered, result, ended, undisturbed, body, whole⟩ := evaluate_call settings state
        runtime context depth word [.memory name place] yielded origin
      obtain ⟨rfl, rfl⟩ := Prod.mk.inj (whole.symm.trans evaluated)
      have left := ended.undisturbed_leave_call settings runtime
        (.call word [.memory name place] yielded origin)
      rw [Rule.run_resolveAndCall (undisturbed.heap ▸ resolves)] at body
      cases depth with
      | zero =>
          -- There is a call, but its memory cannot be evaluated any more.
          obtain ⟨rfl, rfl⟩ := Prod.mk.inj body
          exact .inl ⟨by decide, rfl, undisturbed.trans left⟩
      | succ deeper =>
          obtain ⟨visited, quiet, arguments⟩ :=
            Rule.run_all_memory settings entered runtime context deeper name place
          obtain ⟨started, quiet', same⟩ :=
            Rule.run_callEntry_builtin arguments owner builtin word yielded
          exact .inr ⟨deeper, started, ended, rfl, (undisturbed.trans quiet).trans quiet',
            same.symm.trans body, left⟩

end TreeScript
