import TreeScript.Proofs.Moment

/-!
# How rules are built

What a rule may do is read off its tree, whatever it looks at and whatever its parts give. A calm
rule changes nothing and evaluates nothing. A routine rule works for one runtime: its parts are
evaluated by that runtime and its errors are told by it, until a builtin is carried out, which works
for the runtime that it belongs to. Files are loaded by `moduleOfFile` alone, which is taken as one
piece here, and apart from that no rule touches what a registry knows of files. Every rule of
evaluation is routine, and only that of an import loads files. So a property of evaluations only has
to be shown for each way of building a routine rule and for the loading of a file.
-/

namespace TreeScript

/-- A number, a text or a boolean. -/
def Object.IsDatum : Object → Prop
  | .value (.number _) | .value (.text _) | .value (.boolean _) => True
  | _ => False

/-- A change that has nothing to do with files. -/
def Change.IsRoutine : Change → Prop
  | keep .. | register .. | addRuntime .. | begin _ | finish _ | mark _ => False
  | _ => True

/-- The node that an error is told to be about. It is left open, but an import that finds no module
is about itself. -/
def Cause.Blames (cause : Cause) (node : Node) : Prop :=
  match cause with
  | .unknownModule name => ∃ origin, node = .moduleImport name origin
  | _ => node = .absent

/-- A name that refers to nothing is unknown, or it lies in a namespace that is. -/
theorem Heap.cause_of_resolve {heap : Heap} {scope : ScopeId} {name : String} {cause : Cause}
    (unresolved : heap.resolve scope name = .error cause) :
    (∃ path, cause = .unknownNamespace path) ∨ cause = .unknownFunction name := by
  unfold resolve at unresolved
  split at unresolved
  · cases unresolved
  · split at unresolved
    · split at unresolved
      · cases unresolved
        exact .inl ⟨_, rfl⟩
      · split at unresolved
        · cases unresolved
        · cases unresolved
          exact .inr rfl
    · cases unresolved
      exact .inr rfl

namespace Rule

variable {α β : Type}

/-- The rule looks at the state and then gives a result with the property, or it fails or ends in a
failure that is no error of the language. It never fails for want of steps. -/
inductive Calm (runtime : RuntimeId) (P : α → Prop) : Rule α → Prop
  | done {a : α} : P a → Calm runtime P (done a)
  | look {β : Type} {view : Settings → State → β} {next : β → Rule α} :
      (∀ settings state, Calm runtime P (next (view settings state))) →
      Calm runtime P (look view next)
  | fail {cause : Cause} : cause.isLimit = false → cause.Blames .absent →
      Calm runtime P (fail runtime cause)
  | halt (reason : Failure) : Calm runtime P (halt (.failure reason))

/-- The rule works for the runtime, and it loads no file unless it may. -/
inductive Routine (loads : Prop) : RuntimeId → {α : Type} → Rule α → Prop
  | done {runtime : RuntimeId} {α : Type} (a : α) : Routine loads runtime (done a)
  | look {runtime : RuntimeId} {α β : Type} {view : Settings → State → β} {next : β → Rule α} :
      (∀ settings state, Routine loads runtime (next (view settings state))) →
      Routine loads runtime (look view next)
  | change {runtime : RuntimeId} {α : Type} {c : Change} {next : Rule α} :
      c.IsRoutine → Routine loads runtime next → Routine loads runtime (change c next)
  | fail {runtime : RuntimeId} {α : Type} {cause : Cause} {node : Node} :
      cause.Blames node → Routine loads runtime (fail runtime cause node : Rule α)
  | halt {runtime : RuntimeId} {α : Type} (reason : Interrupt) :
      Routine loads runtime (halt reason : Rule α)
  | part {runtime : RuntimeId} {α : Type} {object : Object} {context : Context}
      {next : Object → Rule α} :
      (∀ x, Routine loads runtime (next x)) →
      Routine loads runtime (part runtime object context next)
  | call {runtime : RuntimeId} {α β : Type} {node : Node} {body : Rule β} {next : β → Rule α} :
      node.callName?.isSome = true → Routine loads runtime body →
      (∀ b, Routine loads runtime (next b)) →
      Routine loads runtime (within (.call runtime node) body next)
  | builtin {runtime : RuntimeId} {α β : Type} {invocation : Invocation} {body : Rule β}
      {next : β → Rule α} :
      Routine loads invocation.runtime body → (∀ b, Routine loads runtime (next b)) →
      Routine loads runtime (within (.builtin invocation) body next)
  | file {runtime : RuntimeId} {α : Type} (place : Place) {next : ScopeId → Rule α} : loads →
      (∀ scope, Routine loads runtime (next scope)) →
      Routine loads runtime (moduleOfFile runtime place >>= next)

variable {loads : Prop} {runtime : RuntimeId} {context : Context}
variable {rule : Rule α} {f : α → Rule β}

theorem Calm.bind {P : α → Prop} {Q : β → Prop} (first : Calm runtime P rule)
    (second : ∀ a, P a → Calm runtime Q (f a)) : Calm runtime Q (rule >>= f) := by
  rw [bind_eq]
  induction first with
  | done holds => exact second _ holds
  | look _ ih => exact .look fun settings state => ih settings state
  | fail other blames => exact .fail other blames
  | halt reason => exact .halt reason

theorem Calm.routine {P : α → Prop} (calm : Calm runtime P rule) : Routine loads runtime rule := by
  induction calm with
  | done _ => exact .done _
  | look _ ih => exact .look ih
  | fail _ blames => exact .fail blames
  | halt reason => exact .halt (.failure reason)

/-- One routine rule after another is routine. -/
theorem Routine.bind (first : Routine loads runtime rule)
    (second : ∀ a, Routine loads runtime (f a)) : Routine loads runtime (rule >>= f) := by
  rw [bind_eq]
  induction first with
  | done a => exact second a
  | look _ ih => exact .look fun settings state => ih settings state second
  | change routine _ ih => exact .change routine (ih second)
  | fail blames => exact .fail blames
  | halt reason => exact .halt reason
  | part _ ih => exact .part fun x => ih x second
  | call named body _ _ ih => exact .call named body fun b => ih b second
  | builtin body _ _ ih => exact .builtin body fun b => ih b second
  | file place may _ ih =>
      rw [bind_eq, bind_assoc]
      exact .file place may fun scope => ih scope second

theorem routine_inspect (view : Settings → State → α) : Routine loads runtime (inspect view) :=
  .look fun _ _ => .done _

theorem routine_perform {c : Change} (routine : c.IsRoutine) : Routine loads runtime (perform c) :=
  .change routine (.done ())

theorem routine_evaluate (object : Object) (context : Context) :
    Routine loads runtime (evaluate runtime object context) :=
  .part fun x => .done x

/-! ### The shared rules -/

theorem calm_ofArithmetic (result : Except ArithmeticFault α) :
    Calm runtime (fun _ => True) (ofArithmetic result) := by
  cases result with
  | ok a => exact .done trivial
  | error fault => exact .halt _

theorem calm_displayed (object : Object) : Calm runtime (fun _ => True) (displayed object) := by
  unfold displayed
  split
  · exact .done trivial
  · exact .halt _

theorem calm_truthOf (object : Object) : Calm runtime (fun _ => True) (truthOf runtime object) := by
  unfold truthOf
  split
  · exact .done trivial
  · exact .fail rfl rfl

/-- The slot of a memory is its own or that of its name in the scope around. -/
theorem calm_memoryOf (context : Context) (object : Object) :
    Calm runtime (fun found => object = .value (.memory found.1 (some found.2)) ∨
      found.2 = ⟨context.scope, found.1⟩) (memoryOf runtime context object) := by
  unfold memoryOf
  split
  · rename_i name slot
    cases slot with
    | none => exact .done (.inr rfl)
    | some slot => exact .done (.inl rfl)
  · exact .fail rfl rfl

theorem routine_trace (line : String) : Routine loads runtime (trace line) := by
  refine (routine_inspect _).bind fun tracing => ?_
  split
  · exact routine_perform (by trivial)
  · exact .done ()

theorem routine_all (nodes : List Node) : Routine loads runtime (all runtime context nodes) := by
  induction nodes with
  | nil => exact .done []
  | cons node rest ih =>
      refine (routine_evaluate _ _).bind fun result => ?_
      exact ih.bind fun results => .done _

theorem routine_each (nodes : List Node) : Routine loads runtime (each runtime context nodes) := by
  induction nodes with
  | nil => exact .done ()
  | cons node rest ih => exact (routine_evaluate _ _).bind fun _ => ih

theorem routine_last (result : Object) (nodes : List Node) :
    Routine loads runtime (last runtime context result nodes) := by
  induction nodes generalizing result with
  | nil => exact .done result
  | cons node rest ih => exact (routine_evaluate _ _).bind fun result => ih result

theorem routine_blockIn (scope : ScopeId) (body : List Node) :
    Routine loads runtime (blockIn runtime context scope body) := by
  refine (routine_each body).bind fun _ => ?_
  split
  · exact .done _
  · exact routine_inspect _

theorem routine_reduceWithin (limit : Int) (remaining : Nat) (object : Object) :
    Routine loads runtime (reduceWithin runtime context limit remaining object) := by
  induction remaining generalizing object with
  | zero =>
      unfold reduceWithin
      split
      · exact .done _
      · split
        · exact .fail rfl
        · exact .fail rfl
  | succ remaining ih =>
      unfold reduceWithin
      split
      · exact .done _
      · split
        · exact (routine_evaluate _ _).bind fun result => ih result
        · exact .fail rfl

theorem routine_reduce (object : Object) : Routine loads runtime (reduce runtime context object) :=
  (routine_inspect _).bind fun _ => routine_reduceWithin _ _ object

theorem routine_reduceToBlockWithin (limit : Int) (remaining : Nat) (object : Object) :
    Routine loads runtime (reduceToBlockWithin runtime context limit remaining object) := by
  induction remaining generalizing object with
  | zero =>
      unfold reduceToBlockWithin
      split
      · exact .fail rfl
      · exact .done _
      · exact .fail rfl
  | succ remaining ih =>
      unfold reduceToBlockWithin
      split
      · exact (routine_evaluate _ _).bind fun result => ih result
      · exact .done _
      · exact .fail rfl

theorem routine_reduceToBlock (object : Object) :
    Routine loads runtime (reduceToBlock runtime context object) :=
  (routine_inspect _).bind fun _ => routine_reduceToBlockWithin _ _ object

end Rule

/-! ### The builtins -/

namespace Builtin

open Rule

variable {loads : Prop} {runtime : RuntimeId} {context : Context}

theorem calm_runAdd (arguments : List Object) :
    Calm runtime Object.IsDatum (runAdd runtime arguments) := by
  unfold runAdd
  split
  · exact .fail rfl rfl
  · split
    · exact .fail rfl rfl
    · split
      · exact (calm_ofArithmetic _).bind fun _ _ => .done trivial
      · exact .done trivial
      · exact .fail rfl rfl

theorem calm_runSub (a b : Object) : Calm runtime Object.IsDatum (runSub runtime a b) := by
  unfold runSub
  split
  · exact (calm_ofArithmetic _).bind fun _ _ => .done trivial
  · exact .fail rfl rfl

theorem calm_runMul (a b : Object) : Calm runtime Object.IsDatum (runMul runtime a b) := by
  unfold runMul
  split
  · split
    · exact (calm_ofArithmetic _).bind fun _ _ => .done trivial
    · exact (calm_ofArithmetic _).bind fun _ _ => .done trivial
    · exact .fail rfl rfl
  · exact .fail rfl rfl

theorem calm_runDiv (a b : Object) : Calm runtime Object.IsDatum (runDiv runtime a b) := by
  unfold runDiv
  split
  · exact (calm_ofArithmetic _).bind fun _ _ => .done trivial
  · exact .fail rfl rfl

theorem calm_runStr (value : Object) : Calm runtime Object.IsDatum (runStr value) :=
  (calm_displayed value).bind fun _ _ => .done trivial

theorem calm_runNum (value : Object) : Calm runtime Object.IsDatum (runNum runtime value) := by
  unfold runNum
  split
  · split
    · exact .done trivial
    · exact .fail rfl rfl
  · simp only []
    split
    · exact .fail rfl rfl
    · exact .done trivial
    · exact .halt _
    · exact .fail rfl rfl
  · exact .fail rfl rfl

theorem calm_runExists (name : Object) :
    Calm runtime Object.IsDatum (runExists runtime context name) := by
  unfold runExists
  split
  · exact .look fun _ _ => .done trivial
  · exact .look fun _ _ => .done trivial
  · exact .fail rfl rfl

theorem routine_freshSlot (memory : Object) :
    Routine loads runtime (freshSlot runtime context memory) := by
  refine (routine_evaluate _ _).bind fun result => ?_
  refine (calm_memoryOf _ _).routine.bind fun found => ?_
  refine (routine_inspect _).bind fun bound => ?_
  split
  · exact .fail rfl
  · exact .done _

theorem routine_runDefine (memory : Object) (yielded : Node) :
    Routine loads runtime (runDefine runtime context memory yielded) := by
  refine (routine_freshSlot memory).bind fun slot => ?_
  exact (routine_perform (by trivial)).bind fun _ => .done _

theorem routine_runDefineNow (memory : Object) (yielded : Node) :
    Routine loads runtime (runDefineNow runtime context memory yielded) := by
  refine (routine_freshSlot memory).bind fun slot => ?_
  refine (routine_reduce _).bind fun value => ?_
  exact (routine_perform (by trivial)).bind fun _ => .done _

theorem calm_boundName (memory : Object) :
    Calm runtime (fun _ => True) (boundName runtime context memory) := by
  refine (calm_memoryOf context memory).bind fun found _ => ?_
  refine .look fun settings state => ?_
  cases state.heap.hasLocal context.scope found.1 with
  | true => exact .done trivial
  | false => exact .fail rfl rfl

theorem routine_runSet (memory : Object) (yielded : Node) :
    Routine loads runtime (runSet runtime context memory yielded) := by
  refine (calm_boundName memory).routine.bind fun name => ?_
  refine (routine_reduce _).bind fun value => ?_
  exact (routine_perform (by trivial)).bind fun _ => .done _

theorem routine_runPrint (value : Object) :
    Routine loads runtime (runPrint runtime context value) := by
  refine (routine_evaluate _ _).bind fun result => ?_
  refine (calm_displayed _).routine.bind fun text => ?_
  exact (routine_perform (by trivial)).bind fun _ => .done _

theorem routine_runReturn (value : Object) : Routine loads runtime (runReturn context value) :=
  (routine_perform (by trivial)).bind fun _ => .done _

theorem routine_runObj (memory : Object) (yielded : Node) :
    Routine loads runtime (runObj runtime context memory yielded) := by
  refine (calm_memoryOf _ _).routine.bind fun found => ?_
  refine (routine_reduceToBlock _).bind fun block => ?_
  refine (routine_evaluate _ _).bind fun space => ?_
  split
  · exact (routine_perform (by trivial)).bind fun _ => .done _
  · exact .done _

theorem routine_runWhen (wanted : Bool) (condition : Object) (yielded : Node) :
    Routine loads runtime (runWhen runtime context wanted condition yielded) := by
  refine (routine_evaluate _ _).bind fun result => ?_
  refine (calm_truthOf _).routine.bind fun holds => ?_
  split
  · exact (routine_evaluate _ _).bind fun _ => .done _
  · exact .done _

theorem routine_runNot (condition : Object) :
    Routine loads runtime (runNot runtime context condition) := by
  refine (routine_evaluate _ _).bind fun result => ?_
  exact (calm_truthOf _).routine.bind fun holds => .done _

theorem routine_runIs (value : Object) (yielded : Node) :
    Routine loads runtime (runIs runtime context value yielded) := by
  refine (routine_evaluate _ _).bind fun left => ?_
  exact (routine_evaluate _ _).bind fun right => .done _

end Builtin

open Rule

/-- A builtin works for the runtime that it belongs to. -/
theorem Invocation.routine_rule (invocation : Invocation) :
    Routine loads invocation.runtime invocation.rule := by
  unfold Invocation.rule
  cases invocation.builtin with
  | define => exact Builtin.routine_runDefine _ _
  | defineNow => exact Builtin.routine_runDefineNow _ _
  | set => exact Builtin.routine_runSet _ _
  | print => exact Builtin.routine_runPrint _
  | param => exact .done _
  | yield => exact routine_evaluate _ _
  | «return» => exact Builtin.routine_runReturn _
  | add => exact (Builtin.calm_runAdd _).routine
  | sub => exact (Builtin.calm_runSub _ _).routine
  | mul => exact (Builtin.calm_runMul _ _).routine
  | div => exact (Builtin.calm_runDiv _ _).routine
  | str => exact (Builtin.calm_runStr _).routine
  | num => exact (Builtin.calm_runNum _).routine
  | obj => exact Builtin.routine_runObj _ _
  | «if» => exact Builtin.routine_runWhen true _ _
  | «unless» => exact Builtin.routine_runWhen false _ _
  | not => exact Builtin.routine_runNot _
  | «exists» => exact (Builtin.calm_runExists _).routine
  | is => exact Builtin.routine_runIs _ _

namespace Rule

variable {loads : Prop} {runtime : RuntimeId} {context : Context}

/-! ### Imports, calls and nodes -/

theorem routine_registeredModule (id : RegistryId) (name : String) :
    Routine loads runtime (registeredModule id name) := by
  refine (routine_inspect _).bind fun found => ?_
  split
  · exact .done _
  · exact .done _
  · rename_i factory
    refine (routine_inspect _).bind fun runs => ?_
    refine (routine_perform (by trivial)).bind fun _ => ?_
    have recipe : Routine loads runtime ((factory.recipe runs).rule name) := by
      cases factory.recipe runs with
      | scope blueprint =>
          refine (routine_inspect _).bind fun scope => ?_
          exact (routine_perform (by trivial)).bind fun _ => .done _
      | existing id => exact .done _
      | other kind | crash message => exact .halt _
    refine recipe.bind fun scope => ?_
    exact (routine_perform (by trivial)).bind fun _ => .done _

theorem routine_localModule (may : loads) (name : String) :
    Routine loads runtime (localModule runtime name) := by
  refine (routine_inspect _).bind fun found => ?_
  split
  · exact .halt _
  · exact .fail rfl
  · rename_i place
    have file : Routine loads runtime (moduleOfFile runtime place >>= pure) :=
      .file place may .done
    rwa [bind_pure] at file

theorem routine_moduleOf (may : loads) (name : String) :
    Routine loads runtime (moduleOf runtime name) := by
  unfold moduleOf
  split
  · rw [map_eq_pure_bind]
    exact (routine_localModule may name).bind fun scope => .done _
  · exact (routine_inspect _).bind fun registry => routine_registeredModule _ _

theorem routine_importModule (may : loads) (name : String) (origin : Origin) :
    Routine loads runtime (importModule runtime (.moduleImport name origin) name) := by
  refine (routine_moduleOf may name).bind fun found => ?_
  split
  · exact .fail ⟨origin, rfl⟩
  · refine (routine_trace _).bind fun _ => ?_
    refine (routine_inspect _).bind fun root => ?_
    exact (routine_perform (by trivial)).bind fun _ => .done _

theorem routine_procedure (procedure : Procedure) (arguments : List Object) (yielded : Node) :
    Routine loads runtime (procedure.rule context arguments yielded) := by
  cases procedure with
  | crash message | refuse kind message => exact .halt _
  | _ => exact .done _

theorem routine_callEntry (name : String) (parameters : List Node) (yielded : Node)
    (entry : Entry) :
    Routine loads runtime (callEntry runtime context name parameters yielded entry) := by
  cases entry with
  | builtin owner builtin =>
      refine (routine_all parameters).bind fun arguments => ?_
      refine (routine_trace _).bind fun _ => ?_
      exact .builtin (Invocation.routine_rule _) .done
  | host label procedure =>
      refine (routine_all parameters).bind fun arguments => ?_
      exact (routine_trace _).bind fun _ => routine_procedure _ _ _
  | custom closure body =>
      have arguments : Routine loads runtime (customArguments runtime context parameters) := by
        unfold customArguments
        split
        · exact .done _
        · exact routine_all parameters
      refine arguments.bind fun arguments => ?_
      exact (routine_trace _).bind fun _ => routine_evaluate _ _
  | inert datum => exact .fail rfl

theorem routine_resolveAndCall (name : String) (parameters : List Node) (yielded : Node) :
    Routine loads runtime (resolveAndCall runtime context name parameters yielded) := by
  refine .look fun settings state => ?_
  cases found : state.heap.resolve context.scope name with
  | error cause =>
      rcases Heap.cause_of_resolve found with ⟨path, rfl⟩ | rfl
      · exact .fail rfl
      · exact .fail rfl
  | ok entry => exact routine_callEntry name parameters yielded entry

/-- Only an import loads files. -/
theorem routine_nodeRule (node : Node)
    (may : ∀ name origin, node = .moduleImport name origin → loads) :
    Routine loads runtime (nodeRule runtime context node) := by
  cases node with
  | absent | list | number | text | boolean | memory => exact .done _
  | call name parameters yielded origin =>
      exact .call rfl (routine_resolveAndCall name parameters yielded) .done
  | block body origin =>
      refine (routine_inspect _).bind fun scope => ?_
      exact (routine_perform (by trivial)).bind fun _ => routine_blockIn _ body
  | program body origin => exact (routine_each body).bind fun _ => .done _
  | group body origin => exact routine_last _ body
  | moduleImport name origin => exact routine_importModule (may name origin rfl) name origin

theorem routine_evaluateStep_of (object : Object)
    (may : ∀ name origin, object = .tree (.moduleImport name origin) → loads) :
    Routine loads runtime (evaluateStep runtime object context) := by
  unfold evaluateStep
  split
  · rename_i node
    split
    · refine (routine_perform (by trivial)).bind fun _ => routine_nodeRule node ?_
      rintro name origin rfl
      exact may name origin rfl
    · exact .done _
  · exact .done _

/-- Evaluation by a runtime works for it. -/
theorem routine_evaluateStep (object : Object) :
    Routine True runtime (evaluateStep runtime object context) :=
  routine_evaluateStep_of object fun _ _ _ => trivial

end Rule

end TreeScript
