import TreeScript.Proofs.SealedScopes

/-!
# Evaluation apart from a sealed scope

Every rule that is carried out in another scope leaves a sealed scope sealed and gives nothing that
leads to it: what is written comes from the scope of the call, from a memory that was given, or from
what was evaluated, and a module has a root of its own. The one thing an import does to the scope of
its runtime is to make the module a namespace of it.
-/

namespace TreeScript

open Rule

variable {root : ScopeId} {imports : Prop} {origin state : State} {settings : Settings}
variable {frames : List Frame} {runtime : RuntimeId} {context : Context} {α : Type}

namespace Sealed

/-- An object that does not lead to a sealed scope may be evaluated in another one. -/
theorem visit (closed : Sealed root imports origin state) (avoids : context.Avoids root)
    {object : Object} (plain : object.Avoids root) :
    (aloofness root imports origin).allows frames state (.visit runtime object context) :=
  ⟨closed, plain, avoids.parameters, fun same => absurd same avoids.scope⟩

theorem visitNode (closed : Sealed root imports origin state) (avoids : context.Avoids root)
    (node : Node) :
    (aloofness root imports origin).allows frames state (.visit runtime (.ofNode node) context) :=
  closed.visit avoids (Object.avoids_ofNode node)

end Sealed

theorem Rule.Calm.aloof {P : α → Prop} {rule : Rule α} (calm : Calm runtime P rule)
    {post : α → State → Prop} (h : ∀ a, P a → post a state) :
    rule.Keeps (aloofness root imports origin) settings frames state post := by
  induction calm with
  | done holds => exact h _ holds
  | look _ ih => exact ih settings state
  | fail _ _ => trivial
  | halt reason => trivial

/-! ### The shared rules -/

namespace Rule

theorem aloof_memoryOf (avoids : context.Avoids root) {object : Object}
    (plain : object.Avoids root) :
    (memoryOf runtime context object).Keeps (aloofness root imports origin) settings frames state
      fun found after => after = state ∧ found.2.scope ≠ root := by
  refine (calm_memoryOf context object).aloof fun found cases => ⟨rfl, ?_⟩
  rcases cases with rfl | eq
  · exact fun same => plain (congrArg some same)
  · rw [eq]
    exact avoids.scope

theorem aloof_all (closed : Sealed root imports origin state) (avoids : context.Avoids root)
    (nodes : List Node) :
    (all runtime context nodes).Keeps (aloofness root imports origin) settings frames state
      fun xs after => Sealed root imports origin after ∧ ∀ x ∈ xs, x.Avoids root := by
  induction nodes generalizing state with
  | nil => exact ⟨closed, by simp⟩
  | cons node rest ih =>
      simp only [all, keeps_bind, keeps_evaluate, keeps_pure]
      refine ⟨closed.visitNode avoids node, fun x middle given => ?_⟩
      refine (ih given.1).mono fun xs after later => ?_
      exact ⟨later.1, List.forall_mem_cons.mpr ⟨given.2, later.2⟩⟩

theorem aloof_each (closed : Sealed root imports origin state) (avoids : context.Avoids root)
    (nodes : List Node) :
    (each runtime context nodes).Keeps (aloofness root imports origin) settings frames state
      fun _ after => Sealed root imports origin after := by
  induction nodes generalizing state with
  | nil => exact closed
  | cons node rest ih =>
      simp only [each, keeps_bind, keeps_evaluate]
      exact ⟨closed.visitNode avoids node, fun x middle given => ih given.1⟩

theorem aloof_last (closed : Sealed root imports origin state) (avoids : context.Avoids root)
    (nodes : List Node) {result : Object} (plain : result.Avoids root) :
    (last runtime context result nodes).Keeps (aloofness root imports origin) settings frames state
      ((aloofness root imports origin).gives state) := by
  induction nodes generalizing state result with
  | nil => exact ⟨closed, plain⟩
  | cons node rest ih =>
      simp only [last, keeps_bind, keeps_evaluate]
      exact ⟨closed.visitNode avoids node, fun x middle given => ih given.1 given.2⟩

/-- The statements of a block are evaluated in its own scope, whatever the scope around is. -/
theorem aloof_blockIn (closed : Sealed root imports origin state)
    (plain : ∀ x ∈ context.parameters, x.Avoids root) {scope : ScopeId} (other : scope ≠ root)
    (body : List Node) :
    (blockIn runtime context scope body).Keeps (aloofness root imports origin) settings frames state
      ((aloofness root imports origin).gives state) := by
  have inner : Context.Avoids root { context with scope, returnScope := false } := ⟨other, plain⟩
  simp only [blockIn, keeps_bind]
  refine (aloof_each closed inner body).mono fun _ after closed' => ?_
  split
  · exact ⟨closed', Object.avoids_scope other⟩
  · exact ⟨closed', (closed'.scopes scope).returned⟩

theorem aloof_reduceWithin (closed : Sealed root imports origin state)
    (avoids : context.Avoids root) (limit : Int) (remaining : Nat) {object : Object}
    (plain : object.Avoids root) :
    (reduceWithin runtime context limit remaining object).Keeps (aloofness root imports origin)
      settings frames state fun value after =>
        Sealed root imports origin after ∧ (Object.value value).Avoids root := by
  induction remaining generalizing state object with
  | zero =>
      unfold reduceWithin
      split
      · exact ⟨closed, plain⟩
      · split <;> trivial
  | succ remaining ih =>
      unfold reduceWithin
      split
      · exact ⟨closed, plain⟩
      · split
        · simp only [keeps_bind, keeps_evaluate]
          exact ⟨closed.visit avoids plain, fun x middle given => ih given.1 given.2⟩
        · trivial

theorem aloof_reduce (closed : Sealed root imports origin state) (avoids : context.Avoids root)
    (node : Node) :
    (reduce runtime context (.ofNode node)).Keeps (aloofness root imports origin) settings frames
      state fun value after =>
        Sealed root imports origin after ∧ (Object.value value).Avoids root :=
  aloof_reduceWithin closed avoids _ _ (Object.avoids_ofNode node)

theorem aloof_reduceToBlockWithin (closed : Sealed root imports origin state)
    (avoids : context.Avoids root) (limit : Int) (remaining : Nat) {object : Object}
    (plain : object.Avoids root) :
    (reduceToBlockWithin runtime context limit remaining object).Keeps
      (aloofness root imports origin) settings frames state fun _ after =>
        Sealed root imports origin after := by
  induction remaining generalizing state object with
  | zero =>
      unfold reduceToBlockWithin
      split
      · trivial
      · exact closed
      · trivial
  | succ remaining ih =>
      unfold reduceToBlockWithin
      split
      · simp only [keeps_bind, keeps_evaluate]
        exact ⟨closed.visit avoids plain, fun x middle given => ih given.1 given.2⟩
      · exact closed
      · trivial

theorem aloof_reduceToBlock (closed : Sealed root imports origin state)
    (avoids : context.Avoids root) (node : Node) :
    (reduceToBlock runtime context (.ofNode node)).Keeps (aloofness root imports origin) settings
      frames state fun _ after => Sealed root imports origin after :=
  aloof_reduceToBlockWithin closed avoids _ _ (Object.avoids_ofNode node)

theorem aloof_trace (closed : Sealed root imports origin state) (line : String) :
    (trace line).Keeps (aloofness root imports origin) settings frames state fun _ after =>
      Sealed root imports origin after := by
  simp only [trace, keeps_bind, keeps_inspect]
  split
  · exact ⟨trivial, closed.change (c := .trace line) trivial⟩
  · exact closed

end Rule

/-! ### The builtins -/

namespace Builtin

theorem aloof_writeSlot (closed : Sealed root imports origin state) (avoids : context.Avoids root)
    {slot : Slot} (other : slot.scope ≠ root) {body : Object} (plain : body.Avoids root) :
    (writeSlot context slot body).Keeps (aloofness root imports origin) settings frames state
      fun _ after => Sealed root imports origin after := by
  have written : Change.Avoids root imports (.write slot context.scope body) :=
    ⟨other, avoids.scope, plain⟩
  exact ⟨written, closed.change written⟩

theorem aloof_freshSlot (closed : Sealed root imports origin state) (avoids : context.Avoids root)
    {memory : Object} (plain : memory.Avoids root) :
    (freshSlot runtime context memory).Keeps (aloofness root imports origin) settings frames state
      fun slot after => Sealed root imports origin after ∧ slot.scope ≠ root := by
  simp only [freshSlot, keeps_bind, keeps_evaluate, keeps_inspect]
  refine ⟨closed.visit avoids plain, fun x middle given => ?_⟩
  refine (aloof_memoryOf avoids given.2).mono fun found after outcome => ?_
  obtain ⟨rfl, other⟩ := outcome
  split
  · trivial
  · exact ⟨given.1, other⟩

theorem aloof_runDefine (closed : Sealed root imports origin state) (avoids : context.Avoids root)
    {memory : Object} (plain : memory.Avoids root) (yielded : Node) :
    (runDefine runtime context memory yielded).Keeps (aloofness root imports origin) settings frames
      state ((aloofness root imports origin).gives state) := by
  simp only [runDefine, keeps_bind]
  refine (aloof_freshSlot closed avoids plain).mono fun slot middle outcome => ?_
  refine (aloof_writeSlot outcome.1 avoids outcome.2 (Object.avoids_ofNode yielded)).mono ?_
  exact fun _ after written => ⟨written, Object.avoids_absent⟩

theorem aloof_runDefineNow (closed : Sealed root imports origin state)
    (avoids : context.Avoids root) {memory : Object} (plain : memory.Avoids root)
    (yielded : Node) :
    (runDefineNow runtime context memory yielded).Keeps (aloofness root imports origin) settings
      frames state ((aloofness root imports origin).gives state) := by
  simp only [runDefineNow, keeps_bind]
  refine (aloof_freshSlot closed avoids plain).mono fun slot middle outcome => ?_
  refine (aloof_reduce outcome.1 avoids yielded).mono fun value last reduced => ?_
  refine (aloof_writeSlot reduced.1 avoids outcome.2 reduced.2).mono fun _ after written => ?_
  exact ⟨written, Object.avoids_absent⟩

theorem aloof_runSet (closed : Sealed root imports origin state) (avoids : context.Avoids root)
    (memory : Object) (yielded : Node) :
    (runSet runtime context memory yielded).Keeps (aloofness root imports origin) settings frames
      state ((aloofness root imports origin).gives state) := by
  simp only [runSet, keeps_bind]
  refine (calm_boundName memory).aloof fun name _ => ?_
  refine (aloof_reduce closed avoids yielded).mono fun value last reduced => ?_
  have other : (Slot.mk context.scope name).scope ≠ root := avoids.scope
  refine (aloof_writeSlot reduced.1 avoids other reduced.2).mono fun _ after written => ?_
  exact ⟨written, Object.avoids_absent⟩

theorem aloof_runPrint (closed : Sealed root imports origin state) (avoids : context.Avoids root)
    {value : Object} (plain : value.Avoids root) :
    (runPrint runtime context value).Keeps (aloofness root imports origin) settings frames state
      ((aloofness root imports origin).gives state) := by
  simp only [runPrint, keeps_bind, keeps_evaluate, keeps_perform, keeps_pure]
  refine ⟨closed.visit avoids plain, fun x after given => ?_⟩
  have shown : Calm runtime (fun _ => True) (displayed x) := calm_displayed x
  refine shown.aloof fun text _ => ?_
  exact ⟨trivial, given.1.change (c := .print runtime text) trivial, Object.avoids_absent⟩

theorem aloof_runReturn (closed : Sealed root imports origin state) (avoids : context.Avoids root)
    {value : Object} (plain : value.Avoids root) :
    (runReturn context value).Keeps (aloofness root imports origin) settings frames state
      ((aloofness root imports origin).gives state) := by
  simp only [runReturn, keeps_bind, keeps_perform, keeps_pure]
  have set : Change.Avoids root imports (.setReturned context.scope value) := ⟨avoids.scope, plain⟩
  exact ⟨set, closed.change set, plain⟩

theorem aloof_runObj (closed : Sealed root imports origin state) (avoids : context.Avoids root)
    {memory : Object} (plain : memory.Avoids root) (yielded : Node) :
    (runObj runtime context memory yielded).Keeps (aloofness root imports origin) settings frames
      state ((aloofness root imports origin).gives state) := by
  simp only [runObj, keeps_bind]
  refine (aloof_memoryOf avoids plain).mono fun found same outcome => ?_
  obtain ⟨rfl, -⟩ := outcome
  refine (aloof_reduceToBlock closed avoids yielded).mono fun block middle closed' => ?_
  have inner : Context.Avoids root { context with returnScope := true } :=
    ⟨avoids.scope, avoids.parameters⟩
  simp only [keeps_evaluate]
  refine ⟨closed'.visit inner (Object.avoids_tree block), fun space after given => ?_⟩
  split
  · rename_i id
    have attached : Change.Avoids root imports (.attach context.scope found.1 id) :=
      ⟨fun same => given.2 (congrArg some same), fun same => absurd same avoids.scope⟩
    exact ⟨attached, given.1.change attached, Object.avoids_absent⟩
  · exact ⟨given.1, Object.avoids_absent⟩

theorem aloof_runWhen (closed : Sealed root imports origin state) (avoids : context.Avoids root)
    (wanted : Bool) {condition : Object} (plain : condition.Avoids root) (yielded : Node) :
    (runWhen runtime context wanted condition yielded).Keeps (aloofness root imports origin)
      settings frames state ((aloofness root imports origin).gives state) := by
  simp only [runWhen, keeps_bind, keeps_evaluate]
  refine ⟨closed.visit avoids plain, fun x middle given => ?_⟩
  refine (calm_truthOf x).aloof fun holds _ => ?_
  split
  · simp only [keeps_bind, keeps_evaluate, keeps_pure]
    exact ⟨given.1.visitNode avoids yielded, fun y after given' =>
      ⟨given'.1, Object.IsDatum.avoids trivial⟩⟩
  · exact ⟨given.1, Object.IsDatum.avoids trivial⟩

theorem aloof_runNot (closed : Sealed root imports origin state) (avoids : context.Avoids root)
    {condition : Object} (plain : condition.Avoids root) :
    (runNot runtime context condition).Keeps (aloofness root imports origin) settings frames state
      ((aloofness root imports origin).gives state) := by
  simp only [runNot, keeps_bind, keeps_evaluate]
  refine ⟨closed.visit avoids plain, fun x after given => ?_⟩
  exact (calm_truthOf x).aloof fun holds _ => ⟨given.1, Object.IsDatum.avoids trivial⟩

theorem aloof_runIs (closed : Sealed root imports origin state) (avoids : context.Avoids root)
    {value : Object} (plain : value.Avoids root) (yielded : Node) :
    (runIs runtime context value yielded).Keeps (aloofness root imports origin) settings frames
      state ((aloofness root imports origin).gives state) := by
  simp only [runIs, keeps_bind, keeps_evaluate, keeps_pure]
  refine ⟨closed.visit avoids plain, fun left middle given => ?_⟩
  exact ⟨given.1.visitNode avoids yielded, fun right after given' =>
    ⟨given'.1, Object.IsDatum.avoids trivial⟩⟩

end Builtin

/-- A builtin that only computes gives a datum. -/
theorem Rule.Calm.gives_aloof {rule : Rule Object} (calm : Calm runtime Object.IsDatum rule)
    (closed : Sealed root imports origin state) :
    rule.Keeps (aloofness root imports origin) settings frames state
      ((aloofness root imports origin).gives state) :=
  calm.aloof fun _ datum => ⟨closed, datum.avoids⟩

theorem Invocation.aloof_rule (invocation : Invocation) (closed : Sealed root imports origin state)
    (avoids : invocation.context.Avoids root)
    (plain : ∀ x ∈ invocation.arguments, x.Avoids root) :
    invocation.rule.Keeps (aloofness root imports origin) settings frames state
      ((aloofness root imports origin).gives state) := by
  have argument (i : Nat) : (invocation.arguments.getD i .absent).Avoids root :=
    Builtin.getD_of_forall Object.avoids_absent plain i
  unfold Invocation.rule
  cases invocation.builtin with
  | define => exact Builtin.aloof_runDefine closed avoids (argument 0) _
  | defineNow => exact Builtin.aloof_runDefineNow closed avoids (argument 0) _
  | set => exact Builtin.aloof_runSet closed avoids _ _
  | print => exact Builtin.aloof_runPrint closed avoids (argument 0)
  | param =>
      exact ⟨closed, Builtin.parameterAt_of_forall _ Object.avoids_absent avoids.parameters _⟩
  | yield => exact ⟨closed.visitNode avoids _, fun x after given => given⟩
  | «return» => exact Builtin.aloof_runReturn closed avoids (argument 0)
  | add => exact (Builtin.calm_runAdd _).gives_aloof closed
  | sub => exact (Builtin.calm_runSub _ _).gives_aloof closed
  | mul => exact (Builtin.calm_runMul _ _).gives_aloof closed
  | div => exact (Builtin.calm_runDiv _ _).gives_aloof closed
  | str =>
      have calm : Calm invocation.runtime Object.IsDatum
          (Builtin.runStr (invocation.arguments.getD 0 .absent)) := Builtin.calm_runStr _
      exact calm.gives_aloof closed
  | num => exact (Builtin.calm_runNum _).gives_aloof closed
  | obj => exact Builtin.aloof_runObj closed avoids (argument 0) _
  | «if» => exact Builtin.aloof_runWhen closed avoids true (argument 0) _
  | «unless» => exact Builtin.aloof_runWhen closed avoids false (argument 0) _
  | not => exact Builtin.aloof_runNot closed avoids (argument 0)
  | «exists» => exact (Builtin.calm_runExists _).gives_aloof closed
  | is => exact Builtin.aloof_runIs closed avoids (argument 0) _

/-! ### Imports -/

theorem aloof_marked (closed : Sealed root imports origin state) (node : Node) :
    (marked node).Keeps (aloofness root imports origin) settings frames state fun node' after =>
      node' = (state.mark node).1 ∧ Sealed root imports origin after :=
  ⟨trivial, rfl, closed.change (c := .mark node) trivial⟩

/-- The program of a file may be evaluated in the sealed scope if it is a block. -/
theorem aloof_evaluateFile (closed : Sealed root imports origin state) (place : Place)
    (program : Node) {scope : ScopeId}
    (top : scope = root → ∃ body origin, program = .block body origin) :
    (evaluateFile runtime place program scope).Keeps (aloofness root imports origin) settings frames
      state ((aloofness root imports origin).gives state) := by
  simp only [evaluateFile, keeps_bind, keeps_perform, keeps_evaluate, keeps_pure]
  have began := closed.change (c := .begin place) trivial
  refine ⟨trivial, ⟨began, Object.avoids_ofNode program, by simp, fun same => ?_⟩,
    fun x after given => ⟨trivial, given.1.change (c := .finish place) trivial, given.2⟩⟩
  obtain ⟨body, location, rfl⟩ := top same
  exact ⟨body, location, rfl⟩

/-- The root of a module is new, so it is not the sealed scope. -/
theorem aloof_evaluateModule (may : imports) (closed : Sealed root imports origin state)
    (place : Place) (program : Node) :
    (evaluateModule runtime place program).Keeps (aloofness root imports origin) settings frames
      state fun scope after => Sealed root imports origin after ∧ scope ≠ root := by
  simp only [evaluateModule, keeps_bind, keeps_inspect, keeps_perform, keeps_pure, keeps_inside]
  refine (aloof_marked closed program).mono fun program before marked => ?_
  have added := marked.2.change (c := .addRuntime runtime place.up) may
  have new := Change.runtime_addRuntime before runtime place.up
  refine ⟨may, ?_⟩
  generalize Change.apply before (.addRuntime runtime place.up) = start at added new ⊢
  have other : (start.runtime before.runtimes.size).root ≠ root := by
    rw [new]
    exact Nat.ne_of_gt marked.2.root_lt
  refine ⟨⟨trivial, trivial⟩, ?_⟩
  refine (aloof_evaluateFile (added.enter (.loading runtime place)) place program
    fun same => absurd same other).mono fun x after given => ?_
  have keep : Change.Avoids root imports
      (.keep runtime place (start.runtime before.runtimes.size).root) := other
  exact ⟨keep, (given.1.leave (.loading runtime place)).change keep, other⟩

theorem aloof_moduleOfFile (may : imports) (closed : Sealed root imports origin state)
    (place : Place) :
    (moduleOfFile runtime place).Keeps (aloofness root imports origin) settings frames state
      fun scope after => Sealed root imports origin after ∧ scope ≠ root := by
  simp only [moduleOfFile, keeps_bind, keeps_inspect]
  cases loaded : (state.registryOf runtime).loaded? place with
  | some scope =>
      obtain ⟨entry, found, rfl⟩ := Option.map_eq_some_iff.mp loaded
      exact ⟨closed, closed.loaded _ entry (List.mem_of_find?_eq_some found)⟩
  | none =>
      simp only [keeps_bind, keeps_inspect]
      split
      · trivial
      · simp only [keeps_bind, keeps_inspect]
        split
        · split <;> trivial
        · exact aloof_evaluateModule may closed place _

/-- No module has a name, so a module comes from a file. -/
theorem aloof_moduleOf (may : imports) (closed : Sealed root imports origin state)
    (name : String) :
    (moduleOf runtime name).Keeps (aloofness root imports origin) settings frames state
      fun found after => Sealed root imports origin after ∧
        ∀ scope, found = some scope → scope ≠ root := by
  unfold moduleOf
  split
  · rw [map_eq_pure_bind]
    simp only [localModule, keeps_bind, keeps_inspect, keeps_pure]
    split
    · trivial
    · trivial
    · refine (aloof_moduleOfFile may closed _).mono fun scope after outcome => ⟨outcome.1, ?_⟩
      rintro _ ⟨⟩
      exact outcome.2
  · simp only [registeredModule, keeps_bind, keeps_inspect, closed.modules, Table.find?,
      keeps_pure]
    exact ⟨closed, by simp⟩

theorem aloof_importModule (may : imports) (closed : Sealed root imports origin state)
    (node : Node) (name : String) :
    (importModule runtime node name).Keeps (aloofness root imports origin) settings frames state
      ((aloofness root imports origin).gives state) := by
  simp only [importModule, keeps_bind]
  refine (aloof_moduleOf may closed name).mono fun found middle outcome => ?_
  cases found with
  | none => trivial
  | some scope =>
      simp only [keeps_bind, keeps_inspect, keeps_perform, keeps_pure]
      refine (aloof_trace outcome.1 _).mono fun _ after traced => ?_
      have other := outcome.2 scope rfl
      have attached : Change.Avoids root imports
          (.attach (after.runtime runtime).root name scope) := ⟨other, fun _ => may⟩
      exact ⟨attached, traced.change attached, Object.avoids_scope other⟩

/-! ### Calls and nodes -/

theorem aloof_callEntry (closed : Sealed root imports origin state) (avoids : context.Avoids root)
    (name : String) (parameters : List Node) (yielded : Node) {entry : Entry}
    (plain : entry.Avoids root) :
    (callEntry runtime context name parameters yielded entry).Keeps (aloofness root imports origin)
      settings frames state ((aloofness root imports origin).gives state) := by
  cases entry with
  | builtin owner builtin =>
      simp only [callEntry, keeps_bind, keeps_inside]
      refine (aloof_all closed avoids parameters).mono fun arguments middle outcome => ?_
      refine (aloof_trace outcome.1 _).mono fun _ after traced => ⟨⟨trivial, trivial⟩, ?_⟩
      let invocation : Invocation := ⟨builtin, owner, context, arguments, yielded⟩
      exact (invocation.aloof_rule traced avoids outcome.2).mono fun x final given => given
  | host label procedure => exact plain.elim
  | custom closure body =>
      have arguments : (customArguments runtime context parameters).Keeps
          (aloofness root imports origin) settings frames state fun xs after =>
            Sealed root imports origin after ∧ ∀ x ∈ xs, x.Avoids root := by
        unfold customArguments
        split
        · exact ⟨closed, avoids.parameters⟩
        · exact aloof_all closed avoids parameters
      simp only [callEntry, keeps_bind, keeps_evaluate]
      refine arguments.mono fun arguments middle outcome => ?_
      refine (aloof_trace outcome.1 _).mono fun _ after traced => ?_
      have inner : Context.Avoids root { scope := closure, parameters := arguments, yielded } :=
        ⟨plain.1, outcome.2⟩
      exact ⟨traced.visit inner plain.2, fun x final given => given⟩
  | inert datum => trivial

theorem aloof_resolveAndCall (closed : Sealed root imports origin state)
    (avoids : context.Avoids root) (name : String) (parameters : List Node) (yielded : Node) :
    (resolveAndCall runtime context name parameters yielded).Keeps (aloofness root imports origin)
      settings frames state ((aloofness root imports origin).gives state) := by
  simp only [resolveAndCall, keeps_bind, keeps_inspect]
  cases found : state.heap.resolve context.scope name with
  | error cause => trivial
  | ok entry =>
      obtain ⟨owner, key, bound⟩ := Heap.exists_find_of_resolve found
      have plain := (closed.scopes owner).functions _ (Table.mem_of_find? bound)
      exact aloof_callEntry closed avoids name parameters yielded plain

/-- A block opens a new scope, also in the sealed one. -/
theorem aloof_evaluateBlock (closed : Sealed root imports origin state)
    (plain : ∀ x ∈ context.parameters, x.Avoids root) (body : List Node) :
    (evaluateBlock runtime context body).Keeps (aloofness root imports origin) settings frames state
      ((aloofness root imports origin).gives state) := by
  simp only [evaluateBlock, keeps_bind, keeps_inspect, keeps_perform]
  have opened := closed.change (c := .openScope context.scope) trivial
  exact ⟨trivial, aloof_blockIn opened plain (Nat.ne_of_gt closed.root_lt) body⟩

theorem aloof_nodeRule (closed : Sealed root imports origin state) (avoids : context.Avoids root)
    (node : Node) (may : ∀ name origin, node = .moduleImport name origin → imports) :
    (nodeRule runtime context node).Keeps (aloofness root imports origin) settings frames state
      ((aloofness root imports origin).gives state) := by
  cases node with
  | absent => exact ⟨closed, Object.avoids_absent⟩
  | list mark items => exact ⟨closed, Object.avoids_tree _⟩
  | number _ _ => exact ⟨closed, Object.IsDatum.avoids trivial⟩
  | text _ _ => exact ⟨closed, Object.IsDatum.avoids trivial⟩
  | boolean _ _ => exact ⟨closed, Object.IsDatum.avoids trivial⟩
  | memory name _ => exact ⟨closed, fun same => avoids.scope (Option.some.inj same)⟩
  | call name parameters yielded location =>
      have entered := closed.enter (.call runtime (.call name parameters yielded location))
      refine ⟨⟨trivial, trivial⟩, ?_⟩
      refine (aloof_resolveAndCall entered avoids name parameters yielded).mono ?_
      exact fun x after given => ⟨given.1.leave _, given.2⟩
  | block body _ => exact aloof_evaluateBlock closed avoids.parameters body
  | program body _ =>
      simp only [nodeRule, keeps_bind, keeps_pure]
      exact (aloof_each closed avoids body).mono fun _ after closed' =>
        ⟨closed', Object.avoids_absent⟩
  | group body _ => exact aloof_last closed avoids body Object.avoids_absent
  | moduleImport name location => exact aloof_importModule (may name location rfl) closed _ name

/-- The rule of a part keeps the contract, if an import is known to be one of those that are
allowed. -/
theorem aloof_evaluateStep {object : Object}
    (allowed : (aloofness root imports origin).allows frames state (.visit runtime object context))
    (may : ∀ name origin, object = .tree (.moduleImport name origin) → imports) :
    (evaluateStep runtime object context).Keeps (aloofness root imports origin) settings frames
      state ((aloofness root imports origin).gives state) := by
  obtain ⟨closed, plain, parameters, top⟩ := allowed
  unfold evaluateStep
  split
  · rename_i node
    split
    · simp only [evaluateNode, keeps_bind, keeps_perform]
      have visited := closed.change (c := .visit runtime node) trivial
      refine ⟨trivial, ?_⟩
      by_cases same : context.scope = root
      · obtain ⟨body, location, eq⟩ := top same
        cases eq
        exact aloof_evaluateBlock visited parameters body
      · exact aloof_nodeRule visited ⟨same, parameters⟩ node fun name location eq =>
          may name location (congrArg Object.tree eq)
    · exact ⟨closed, plain⟩
  · exact ⟨closed, plain⟩

end TreeScript
