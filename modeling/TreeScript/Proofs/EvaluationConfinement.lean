import TreeScript.Proofs.BuiltinConfinement

/-!
# Evaluation stays in the realm

The rule of every part stays in the realm. A file is evaluated by a runtime whose root is new, so
for loading it only the registry has to belong to the realm, and the runtime that imports it need
not be in the realm itself. A builtin is found in the root of its runtime, which is then in the
realm as well.
-/

namespace TreeScript

open Rule

variable {settings : Settings} {realm : Realm} {origin state : State}
variable {frames : List Frame} {runtime : RuntimeId} {context : Context} {α : Type}

/-! ### Imports -/

theorem confined_evaluateFile {scope : ScopeId}
    (active : Active realm origin state runtime { scope }) (place : Place) (program : Node) :
    (evaluateFile runtime place program scope).Keeps (confinement settings realm origin) settings
      frames state ((confinement settings realm origin).gives state) := by
  simp only [evaluateFile, keeps_bind, keeps_perform, keeps_evaluate, keeps_pure]
  have began : Onward realm origin state (Change.apply state (.begin place)) :=
    .change active.confined trivial
  refine ⟨trivial, (active.later began).visitNode program, fun x after given => ?_⟩
  have finished : Onward realm origin after (Change.apply after (.finish place)) :=
    .change given.1.confined trivial
  exact ⟨trivial, (began.trans given.1).trans finished, given.2⟩

theorem confined_marked (confined : Confined realm origin state) (node : Node) :
    (marked node).Keeps (confinement settings realm origin) settings frames state fun _ after =>
      Onward realm origin state after := by
  simp only [marked, keeps_bind, keeps_inspect, keeps_perform, keeps_pure]
  exact ⟨trivial, .change confined trivial⟩

/-- The runtime of a file stays in the realm, as its root is new. The runtime that imports the file
need not be in the realm, but the registry has to be. -/
theorem confined_evaluateModule (confined : Confined realm origin state)
    (inside : runtime < state.runtimes.size)
    (known : realm.registries (state.runtime runtime).registry) (place : Place) (program : Node) :
    (evaluateModule runtime place program).Keeps (confinement settings realm origin) settings frames
      state fun scope after => Onward realm origin state after ∧ realm.scopes scope := by
  simp only [evaluateModule, keeps_bind, keeps_inspect, keeps_perform, keeps_pure, keeps_inside]
  refine (confined_marked confined program).mono fun program before marked => ?_
  have inside' := Nat.lt_of_lt_of_le inside marked.grows.runtimes
  have into : Change.In realm before (.addRuntime runtime place.up) := by
    change realm.registries (before.runtime runtime).registry
    rw [(marked.grows.runtime runtime inside).registry]
    exact known
  have added := Onward.change marked.confined into
  refine ⟨into, ?_⟩
  have new := Change.runtime_addRuntime before runtime place.up
  have size := Change.size_addRuntime before runtime place.up
  generalize Change.apply before (.addRuntime runtime place.up) = start at added size new ⊢
  have young : before.runtimes.size < start.runtimes.size := by omega
  have root : realm.scopes (start.runtime before.runtimes.size).root := by
    rw [new]
    exact marked.confined.new (Nat.le_refl _)
  have active : Active realm origin start before.runtimes.size
      { scope := (start.runtime before.runtimes.size).root } :=
    ⟨added.confined, young, root, root, by simp⟩
  -- While the file is being loaded, the new runtime evaluates it in its root scope.
  have entered := Onward.enter added.confined (.loading runtime place)
  refine ⟨⟨trivial, trivial⟩, ?_⟩
  refine (confined_evaluateFile (active.later entered) place program).mono fun x after given => ?_
  have left := Onward.leave given.1.confined (.loading runtime place)
  have keep : Change.In realm (Frame.leave after (.loading runtime place))
      (.keep runtime place (start.runtime before.runtimes.size).root) := root
  have kept := Onward.change left.confined keep
  have later := ((entered.trans given.1).trans left).trans kept
  exact ⟨root, (marked.trans added).trans later, root⟩

theorem confined_moduleOfFile (confined : Confined realm origin state)
    (inside : runtime < state.runtimes.size)
    (known : realm.registries (state.runtime runtime).registry) (place : Place) :
    (moduleOfFile runtime place).Keeps (confinement settings realm origin) settings frames state
      fun scope after => Onward realm origin state after ∧ realm.scopes scope := by
  simp only [moduleOfFile, keeps_bind, keeps_inspect]
  cases loaded : (state.registryOf runtime).loaded? place with
  | some scope =>
      obtain ⟨entry, found, rfl⟩ := Option.map_eq_some_iff.mp loaded
      have mem := List.mem_of_find?_eq_some found
      exact ⟨.refl confined, confined.loaded _ known entry mem⟩
  | none =>
      simp only [keeps_bind, keeps_inspect]
      split
      · exact confinement_fail rfl _
      · simp only [keeps_bind, keeps_inspect]
        split
        · split
          · trivial
          · exact confinement_fail rfl _
        · exact confined_evaluateModule confined inside known place _

theorem confined_localModule (confined : Confined realm origin state)
    (inside : runtime < state.runtimes.size)
    (known : realm.registries (state.runtime runtime).registry) (name : String) :
    (localModule runtime name).Keeps (confinement settings realm origin) settings frames state
      fun scope after => Onward realm origin state after ∧ realm.scopes scope := by
  simp only [localModule, keeps_bind, keeps_inspect]
  split
  · trivial
  · exact confinement_fail rfl _
  · exact confined_moduleOfFile confined inside known _

/-- Without a host no module has a name. -/
theorem confined_moduleOf (active : Active realm origin state runtime context) (name : String) :
    (moduleOf runtime name).Keeps (confinement settings realm origin) settings frames state
      fun found after => Onward realm origin state after ∧
        ∀ scope, found = some scope → realm.scopes scope := by
  have confined := active.confined
  unfold moduleOf
  split
  · rw [map_eq_pure_bind]
    simp only [keeps_bind, keeps_pure]
    refine (confined_localModule confined active.runtime_lt active.registry name).mono
      fun scope after outcome => ⟨outcome.1, ?_⟩
    rintro _ ⟨⟩
    exact outcome.2
  · have none := confined.modules _ active.registry
    simp only [registeredModule, keeps_bind, keeps_inspect, none, Table.find?, keeps_pure]
    exact ⟨.refl confined, by simp⟩

theorem confined_importModule (active : Active realm origin state runtime context) (node : Node)
    (name : String) :
    (importModule runtime node name).Keeps (confinement settings realm origin) settings frames state
      ((confinement settings realm origin).gives state) := by
  simp only [importModule, keeps_bind]
  refine (confined_moduleOf active name).mono fun found after outcome => ?_
  obtain ⟨onward, inside⟩ := outcome
  cases found with
  | none => exact confinement_fail rfl _
  | some scope =>
      simp only [keeps_bind, keeps_inspect, keeps_perform, keeps_pure]
      refine (confined_trace onward.confined _).mono fun _ last traced => ?_
      have later := onward.trans traced
      have attached : Change.In realm last (.attach (last.runtime runtime).root name scope) :=
        ⟨(active.later later).root, inside scope rfl⟩
      exact ⟨attached, later.trans (.change later.confined attached),
        Object.in_scope (inside scope rfl)⟩

/-! ### Calls and nodes -/

/-- What a name refers to lies in the realm, and a builtin belongs to a runtime of the realm. -/
theorem Active.resolve (active : Active realm origin state runtime context) {name : String}
    {entry : Entry} (found : state.heap.resolve context.scope name = .ok entry) :
    entry.In realm ∧ ∀ owner builtin, entry = .builtin owner builtin →
      Active realm origin state owner context := by
  obtain ⟨scope, key, inside, mem⟩ := active.confined.closed.resolve active.scope found
  refine ⟨(active.confined.closed scope inside).functions _ mem, ?_⟩
  rintro owner builtin rfl
  obtain ⟨owner_lt, root⟩ := active.confined.housed scope key owner builtin mem
  exact ⟨active.confined, owner_lt, root ▸ inside, active.scope, active.parameters⟩

theorem confined_callEntry (active : Active realm origin state runtime context) (name : String)
    (parameters : List Node) (yielded : Node) {entry : Entry} (into : entry.In realm)
    (owned : ∀ owner builtin, entry = .builtin owner builtin →
      Active realm origin state owner context) :
    (callEntry runtime context name parameters yielded entry).Keeps
      (confinement settings realm origin) settings frames state
      ((confinement settings realm origin).gives state) := by
  cases entry with
  | builtin owner builtin =>
      simp only [callEntry, keeps_bind, keeps_inside]
      refine (confined_all active parameters).mono fun arguments middle outcome => ?_
      refine (confined_trace outcome.1.confined _).mono fun _ after traced => ?_
      have later := outcome.1.trans traced
      have active' := (owned owner builtin rfl).later later
      refine ⟨⟨trivial, trivial⟩, ?_⟩
      let invocation : Invocation := ⟨builtin, owner, context, arguments, yielded⟩
      refine (invocation.confined_rule active' outcome.2).mono fun x final given => ?_
      exact ⟨later.trans given.1, given.2⟩
  | host label procedure => exact into.elim
  | custom closure body =>
      have arguments : (customArguments runtime context parameters).Keeps
          (confinement settings realm origin) settings frames state fun xs after =>
            Onward realm origin state after ∧ ∀ x ∈ xs, x.In realm := by
        unfold customArguments
        split
        · exact ⟨.refl active.confined, active.parameters⟩
        · exact confined_all active parameters
      simp only [callEntry, keeps_bind, keeps_evaluate]
      refine arguments.mono fun arguments middle outcome => ?_
      refine (confined_trace outcome.1.confined _).mono fun _ after traced => ?_
      have later := outcome.1.trans traced
      have active' := active.later later
      have inner : Active realm origin after runtime
          { scope := closure, parameters := arguments, yielded } :=
        { active' with scope := into.1, parameters := outcome.2 }
      exact ⟨⟨inner, into.2⟩, fun x final given => ⟨later.trans given.1, given.2⟩⟩
  | inert datum => exact confinement_fail rfl _

theorem confined_resolveAndCall (active : Active realm origin state runtime context)
    (name : String) (parameters : List Node) (yielded : Node) :
    (resolveAndCall runtime context name parameters yielded).Keeps
      (confinement settings realm origin) settings frames state
      ((confinement settings realm origin).gives state) := by
  simp only [resolveAndCall, keeps_bind, keeps_inspect]
  cases found : state.heap.resolve context.scope name with
  | error cause =>
      rcases Heap.cause_of_resolve found with ⟨path, rfl⟩ | rfl
      · exact confinement_fail rfl _
      · exact confinement_fail rfl _
  | ok entry =>
      obtain ⟨into, owned⟩ := active.resolve found
      exact confined_callEntry active name parameters yielded into owned

theorem confined_evaluateBlock (active : Active realm origin state runtime context)
    (body : List Node) :
    (evaluateBlock runtime context body).Keeps (confinement settings realm origin) settings frames
      state ((confinement settings realm origin).gives state) := by
  simp only [evaluateBlock, keeps_bind, keeps_inspect, keeps_perform]
  have into : Change.In realm state (.openScope context.scope) := active.scope
  have opened := Onward.change active.confined into
  have inside : realm.scopes state.heap.scopes.size := active.confined.new (Nat.le_refl _)
  refine ⟨into, ?_⟩
  exact (confined_blockIn (active.later opened) inside body).mono fun x after given =>
    ⟨opened.trans given.1, given.2⟩

theorem confined_nodeRule (active : Active realm origin state runtime context) (node : Node) :
    (nodeRule runtime context node).Keeps (confinement settings realm origin) settings frames state
      ((confinement settings realm origin).gives state) := by
  have confined := active.confined
  cases node with
  | absent => exact ⟨.refl confined, Object.in_absent realm⟩
  | list mark items =>
      have into := (Object.node_or_in realm (.list mark items)).resolve_left Bool.false_ne_true
      exact ⟨.refl confined, into⟩
  | number _ _ => exact ⟨.refl confined, Object.IsDatum.into trivial⟩
  | text _ _ => exact ⟨.refl confined, Object.IsDatum.into trivial⟩
  | boolean _ _ => exact ⟨.refl confined, Object.IsDatum.into trivial⟩
  | memory name _ => exact ⟨.refl confined, Object.in_memory active.scope name⟩
  | call name parameters yielded place =>
      have entered := Onward.enter confined (.call runtime (.call name parameters yielded place))
      have active' := active.later entered
      refine ⟨⟨trivial, trivial⟩, ?_⟩
      refine (confined_resolveAndCall active' name parameters yielded).mono fun x after given => ?_
      have left := Onward.leave given.1.confined
        (.call runtime (.call name parameters yielded place))
      exact ⟨(entered.trans given.1).trans left, given.2⟩
  | block body _ => exact confined_evaluateBlock active body
  | program body _ =>
      simp only [nodeRule, keeps_bind, keeps_pure]
      exact (confined_each active body).mono fun _ after onward =>
        ⟨onward, Object.in_absent realm⟩
  | group body _ => exact confined_last active body (Object.in_absent realm)
  | moduleImport name _ => exact confined_importModule active _ name

/-- The rule of every part stays in the realm. -/
theorem confinement_kept (settings : Settings) (realm : Realm) (origin : State) :
    (confinement settings realm origin).Kept settings := by
  rintro runtime object context frames state ⟨active, plain⟩
  unfold evaluateStep
  split
  · rename_i node
    split
    · simp only [evaluateNode, keeps_bind, keeps_perform]
      have visited : Onward realm origin state (Change.apply state (.visit runtime node)) :=
        .change active.confined trivial
      refine ⟨trivial, ?_⟩
      exact (confined_nodeRule (active.later visited) node).mono fun x after given =>
        ⟨visited.trans given.1, given.2⟩
    · rename_i other
      exact ⟨.refl active.confined, plain.resolve_left other⟩
  · rename_i other
    refine ⟨.refl active.confined, plain.resolve_left fun isNode => ?_⟩
    cases object with
    | tree node => exact other node rfl
    | _ => cases isNode

/-- A rule that stays in the realm leads from one state of the realm to others, whether it ends
early or not. -/
theorem Rule.Keeps.confined {rule : Rule α} {post : α → State → Prop}
    (keeps : rule.Keeps (confinement settings realm origin) settings frames state post)
    (confined : Confined realm origin state) (depth : Nat) :
    Confined realm origin (rule.run (TreeScript.evaluate depth) settings state).2 ∧
      ∀ m ∈ rule.moments settings depth frames state, Confined realm origin m.state := by
  have allowed := (keeps.sound (confinement_kept settings realm origin) depth).2
  have linked := rule.moments_linked settings depth frames state
  exact linked.invariant (P := fun _ state => Confined realm origin state)
    (fun m mem confined => confined.next (allowed m mem)) confined

/-- A runtime of the realm stays in it, and what it gives does not lead out of it. -/
theorem evaluate_confined (settings : Settings) (depth : Nat)
    (active : Active realm origin state runtime context) {object : Object}
    (plain : object.isNode = true ∨ object.In realm) :
    Confined realm origin (evaluate depth runtime object context settings state).2 ∧
      ∀ x, (evaluate depth runtime object context settings state).1 = .ok x → x.In realm := by
  have whole : (Rule.evaluate runtime object context).Keeps (confinement settings realm origin)
      settings [] state ((confinement settings realm origin).gives state) :=
    confined_evaluate active plain
  have confined := (whole.confined active.confined depth).1
  have given := (whole.sound (confinement_kept settings realm origin) depth).1
  rw [Rule.run_evaluate] at confined given
  refine ⟨confined, fun x result => ?_⟩
  exact (given x _ (Prod.ext result rfl)).2

end TreeScript
