import TreeScript.Proofs.OutputRouting
import TreeScript.Proofs.SealedEvaluation

/-!
# Programs that are blocks

A program that is a block is evaluated in a scope of its own, below the root scope of its runtime.
Without a host nothing leads to the root of a new runtime, so however many such programs are run one
after the other, with whatever imports and whatever errors, the functions of the root are the
builtins, and the root returns nothing.
-/

namespace TreeScript

open Rule

def Node.IsBlock (node : Node) : Prop := ∃ body origin, node = .block body origin

theorem Node.IsBlock.mark {node : Node} (block : node.IsBlock) (next : Nat) :
    (node.mark next).1.IsBlock := by
  obtain ⟨body, origin, rfl⟩ := block
  exact ⟨_, _, rfl⟩

/-! ### Sequences of calls -/

/-- The program that is loaded, if any is, has the property. -/
def Script.Loads (P : Node → Prop) (reader : Reader) (script : Script) : Prop :=
  ∀ program, script.load reader = .ok program → P program

/-- The program that is asked for has the property, if it can be loaded. -/
def Request.Loads (P : Node → Prop) (files : Files) : Request → Prop
  | .script given => given.Loads P files.reader
  | .file path =>
      ∀ document, Document.atPath files path = .ok document →
        (Script.data document).Loads P files.reader

/-- One program after another was run in a runtime, each with the property. Each call may have
settings, a depth and a runner of its own, which brings no modules, and it may end in any way. -/
inductive Served (P : Node → Prop) (id : RuntimeId) (start : State) : State → Prop
  | start : Served P id start start
  | call {state : State} (settings : Settings) (depth : Nat) (runner : Runner)
      (request : Request) :
      Served P id start state → runner.runtime = id → runner.modules = [] →
      request.Loads P settings.files →
      Served P id start (runner.call settings depth state request).2

/-- A call changes the state by the run of a script, if it comes to that. Otherwise it does nothing
or makes a note in a new journal. -/
theorem Runner.call_state (Q : State → Prop) {P : Node → Prop} {settings : Settings} {depth : Nat}
    {runner : Runner} {state : State} {request : Request}
    (loads : request.Loads P settings.files) (start : Q state)
    (renewed : Q (state.renewJournal runner.runtime))
    (noted : ∀ {state} id note, Q state → Q (state.note id note))
    (ran : ∀ (other : Runner) (place : Option Place) (script : Script),
      other.runtime = runner.runtime → other.modules = runner.modules →
      script.Loads P settings.files.reader →
      Q (other.runFrom depth place script settings state).2) :
    Q (runner.call settings depth state request).2 := by
  cases request with
  | script script => exact ran runner none script rfl rfl loads
  | file path =>
      unfold call runFile
      simp only [Action.settings, Action.bind_apply]
      cases found : Document.atPath settings.files path with
      | error fault =>
          simp only
          cases fault.interrupt? decodingKinds with
          | some reason => exact start
          | none => exact noted _ _ renewed
      | ok document => exact ran _ _ (.data document) rfl rfl (loads document found)

/-! ### The root stays as it is -/

variable {root : ScopeId} {imports : Prop} {origin state : State} {settings : Settings}
variable {runner : Runner}

/-- Every rule keeps a sealed scope sealed, if imports are allowed. -/
theorem aloofness_kept (may : imports) : (aloofness root imports origin).Kept settings :=
  fun _ _ _ _ _ allowed => aloof_evaluateStep allowed fun _ _ _ => may

namespace Runner

/-- A block may be evaluated in whatever scope is the root of the runtime. -/
theorem aloof_programRule (closed : Sealed root imports origin state)
    (modules : runner.modules = []) (place : Option Place) {program : Node}
    (block : program.IsBlock) :
    (runner.programRule place program).Keeps (aloofness root imports origin) settings [] state
      ((aloofness root imports origin).gives state) := by
  simp only [programRule, modules, registerAll, keeps_bind, keeps_inspect, keeps_pure]
  refine (aloof_marked closed program).mono fun program' after marked => ?_
  obtain ⟨rfl, closed'⟩ := marked
  have top := block.mark state.nextMark
  cases place with
  | none =>
      obtain ⟨body, location, eq⟩ := top
      refine ⟨⟨closed', Object.avoids_ofNode _, by simp, fun _ => ⟨body, location, ?_⟩⟩,
        fun x last given => given⟩
      exact congrArg Object.ofNode eq
  | some place => exact aloof_evaluateFile closed' place _ fun _ => top

theorem sealed_prepared (closed : Sealed root imports origin state) (settings : Settings) :
    Sealed root imports origin (runner.prepared settings state) :=
  closed.same rfl (by simp [prepared, State.renewJournal]) rfl

theorem root_evaluateProgram {id : RuntimeId} (inside : id < state.runtimes.size) (depth : Nat)
    (place : Option Place) (program : Node) :
    id < (runner.evaluateProgram depth place program settings state).2.runtimes.size ∧
      ((runner.evaluateProgram depth place program settings state).2.runtime id).root =
        (state.runtime id).root := by
  have grows := (runner.moments_linked settings depth place program state).grows.1
  exact ⟨Nat.lt_of_lt_of_le inside grows.runtimes, (grows.runtime id inside).root⟩

end Runner

/-- The root of a runtime is sealed. -/
structure Guarded (root : ScopeId) (imports : Prop) (origin : State) (id : RuntimeId)
    (state : State) : Prop where
  closed : Sealed root imports origin state
  runtime_lt : id < state.runtimes.size
  root_eq : (state.runtime id).root = root

namespace Guarded

variable {id : RuntimeId}

theorem renewJournal (guarded : Guarded root imports origin id state) (other : RuntimeId) :
    Guarded root imports origin id (state.renewJournal other) where
  closed := guarded.closed.same rfl (by simp) rfl
  runtime_lt := by simpa [State.renewJournal] using guarded.runtime_lt
  root_eq := by
    rw [state.view_renewJournal Runtime.root other fun _ _ => rfl]
    exact guarded.root_eq

theorem note (guarded : Guarded root imports origin id state) (other : RuntimeId) (note : Note) :
    Guarded root imports origin id (state.note other note) :=
  ⟨guarded.closed.same rfl rfl rfl, guarded.runtime_lt, guarded.root_eq⟩

theorem prepared (guarded : Guarded root imports origin id state) (settings : Settings)
    (runner : Runner) : Guarded root imports origin id (runner.prepared settings state) where
  closed := Runner.sealed_prepared guarded.closed settings
  runtime_lt := by simpa [Runner.prepared, State.renewJournal] using guarded.runtime_lt
  root_eq := by
    rw [runner.view_prepared Runtime.root settings state (fun _ _ => rfl) fun _ _ => rfl]
    exact guarded.root_eq

/-- A run that keeps aloof from the root of its runtime leaves it sealed, however it ends. -/
theorem of_allowed (guarded : Guarded root imports origin id state) {depth : Nat}
    {place : Option Place} {program : Node}
    (allowed : ∀ m ∈ runner.moments settings depth place program state,
      (aloofness root imports origin).allows m.frames m.state m.deed) :
    Guarded root imports origin id
      (runner.evaluateProgram depth place program settings state).2 := by
  have linked := runner.moments_linked settings depth place program state
  have closed := linked.invariant (P := fun _ state => Sealed root imports origin state)
    (fun m mem closed => closed.next (allowed m mem)) guarded.closed
  obtain ⟨inside, same⟩ := runner.root_evaluateProgram guarded.runtime_lt depth place program
  exact ⟨closed.1, inside, same.trans guarded.root_eq⟩

/-- A block leaves the root of its runtime sealed, whatever it imports. -/
theorem evaluateProgram (guarded : Guarded root True origin id state)
    (modules : runner.modules = []) (depth : Nat) (place : Option Place) {program : Node}
    (block : program.IsBlock) :
    Guarded root True origin id (runner.evaluateProgram depth place program settings state).2 := by
  have keeps : (runner.programRule place program).Keeps _ settings [] state _ :=
    Runner.aloof_programRule guarded.closed modules place block
  exact guarded.of_allowed (keeps.sound (aloofness_kept trivial) depth).2

theorem runFrom (guarded : Guarded root True origin id state) (modules : runner.modules = [])
    (depth : Nat) (place : Option Place) {script : Script}
    (loads : script.Loads Node.IsBlock settings.files.reader) :
    Guarded root True origin id (runner.runFrom depth place script settings state).2 := by
  refine Runner.runFrom_state (Guarded root True origin id) runner
    (guarded.prepared settings runner) (fun program loaded => ?_) fun other note known =>
      known.note other note
  exact (guarded.prepared settings runner).evaluateProgram modules depth place
    (loads program loaded)

end Guarded

namespace Served

/-- The root of a runtime stays sealed while blocks are run in it. -/
theorem guarded {start : State} {id : RuntimeId} (served : Served Node.IsBlock id start state)
    (begun : Guarded root True origin id start) : Guarded root True origin id state := by
  induction served with
  | start => exact begun
  | @call state settings depth runner request _ _ modules loads ih =>
      refine Runner.call_state (Guarded root True origin id) loads ih
        (ih.renewJournal runner.runtime) (fun other note known => known.note other note) ?_
      intro other place script _ same loads
      exact ih.runFrom (same.trans modules) depth place loads

/-- Programs that are blocks do not touch the root of their runtime. Whichever of them are run in a
new runtime of a session without a host, one after the other: after each run the functions of the
root are the nineteen builtins, and the root returns nothing. -/
theorem root_untouched (session : Session false origin) (registry : RegistryId)
    (directory : Option Place) (output : Option Output) (reports : Bool)
    (served : Served Node.IsBlock origin.runtimes.size
      (origin.addRuntime registry directory output reports).2 state) :
    let scope := state.heap.get (state.runtime origin.runtimes.size).root
    scope.functions = State.builtins origin.runtimes.size ∧ scope.functions.length = 19 ∧
      scope.returned = .absent := by
  intro scope
  have new := origin.runtime_addRuntime_self registry directory output reports
  have begun : Guarded origin.heap.scopes.size True
      (origin.addRuntime registry directory output reports).2 origin.runtimes.size
      (origin.addRuntime registry directory output reports).2 :=
    ⟨session.sound.sealed registry directory output reports,
      by simp [State.addRuntime, State.allocate], by rw [new]⟩
  have guarded := served.guarded begun
  have first : (origin.addRuntime registry directory output reports).2.heap.get
      origin.heap.scopes.size = { functions := State.builtins origin.runtimes.size } :=
    Heap.get_alloc_self origin.heap _
  have kept := guarded.closed.kept
  rw [first, ← guarded.root_eq] at kept
  refine ⟨kept.functions, ?_, kept.returned⟩
  rw [kept.functions, State.builtins, List.length_map, Builtin.all_length]

/-- A block that defines a function and then another that calls it in vain. -/
theorem root_untouched_twice :
    let define : Script :=
      .program (.block [.call "def" [.memory "f" {}] (.number (.int 1) {}) {}] {})
    let call : Script := .program (.block [.call "f" [] .absent {}] {})
    let settings := Settings.quiet Files.empty
    let first := (Runner.main.call settings 9 State.fresh (.script define)).2
    let second := (Runner.main.call settings 9 first (.script call)).2
    let scope := second.heap.get (second.runtime 0).root
    scope.functions = State.builtins 0 ∧ scope.functions.length = 19 ∧
      scope.returned = .absent := by
  intro define call settings first second scope
  have once : Served Node.IsBlock 0 State.fresh first := by
    refine .call settings 9 Runner.main (.script define) .start rfl rfl ?_
    rintro _ ⟨⟩
    exact ⟨_, _, rfl⟩
  have twice : Served Node.IsBlock 0 State.fresh second := by
    refine .call settings 9 Runner.main (.script call) once rfl rfl ?_
    rintro _ ⟨⟩
    exact ⟨_, _, rfl⟩
  have untouched (state : State) (served : Served Node.IsBlock 0 State.fresh state) :
      let scope := state.heap.get (state.runtime 0).root
      scope.functions = State.builtins 0 ∧ scope.functions.length = 19 ∧
        scope.returned = .absent :=
    root_untouched Session.start.addRegistry 0 none none true served
  exact untouched second twice

end Served

end TreeScript
