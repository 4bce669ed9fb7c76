import TreeScript.Proofs.Contract
import TreeScript.Proofs.Provenance
import TreeScript.Proofs.Routine

/-!
# Evaluation hands trees on

The contract of this module is kept by every rule, with and without a host. If all trees that are
handed in have a hereditary property, then so has every tree that is met: whatever is evaluated,
whatever is written, whatever an error is about, and whatever a part gives. Besides, a text is
printed directly within the frame of a `print` alone, by the runtime that the builtin belongs to.
-/

namespace TreeScript

/-- A text is printed directly within the frame of a `print` of that runtime. -/
def Change.PrintedIn (frames : List Frame) : Change → Prop
  | print runtime _ => ∃ invocation, frames.head? = some (.builtin invocation) ∧
      invocation.builtin = .print ∧ invocation.runtime = runtime
  | _ => True

/-- Whatever is dealt with at a moment carries the property. -/
def Deed.Carries (P : Node → Prop) (frames : List Frame) (state : State) : Deed → Prop
  | visit _ object context => state.Carries P ∧ object.Carries P ∧ context.Carries P
  | change c => c.Carries P ∧ c.PrintedIn frames
  | enter frame => frame.Carries P
  | leave _ => True
  | fail _ _ node => P node
  | halt reason => reason.Carries P

def custody (P : Node → Prop) : Contract where
  allows frames state deed := deed.Carries P frames state
  encloses _ _ := True
  gives _ x after := after.Carries P ∧ x.Carries P
  allows_leave _ _ _ := trivial

/-- The trees of all files that can be read as programs have the property. -/
def Files.Carries (P : Node → Prop) (files : Files) : Prop :=
  ∀ place node, files.program place = .ok node → P node

/-- A hereditary property of everything that is known in a state and a context. -/
structure InCustody (P : Node → Prop) (state : State) (context : Context) : Prop where
  hereditary : Node.Hereditary P
  state : state.Carries P
  context : context.Carries P

variable {P : Node → Prop} {settings : Settings} {frames : List Frame} {state after : State}
variable {runtime : RuntimeId} {context : Context} {α : Type}

namespace InCustody

theorem later (held : InCustody P state context) (carries : after.Carries P) :
    InCustody P after context :=
  { held with state := carries }

theorem inContext (held : InCustody P state context) {other : Context} (carries : other.Carries P) :
    InCustody P state other :=
  { held with context := carries }

theorem change (held : InCustody P state context) {c : Change} (carries : c.Carries P) :
    (c.apply state).Carries P :=
  carries.apply held.hereditary held.state

theorem visit (held : InCustody P state context) {object : Object} (carries : object.Carries P) :
    (custody P).allows frames state (.visit runtime object context) :=
  ⟨held.state, carries, held.context⟩

theorem visitNode (held : InCustody P state context) {node : Node} (holds : P node) :
    (custody P).allows frames state (.visit runtime (.ofNode node) context) :=
  held.visit (Object.carries_ofNode holds)

theorem fail (held : InCustody P state context) (cause : Cause) :
    (custody P).allows frames state (.fail runtime cause .absent) :=
  held.hereditary.absent

end InCustody

open Rule

/-- A calm rule meets no trees and changes nothing. -/
theorem Rule.Calm.carried (held : InCustody P state context) {Q : α → Prop} {rule : Rule α}
    (calm : Calm runtime Q rule) {post : α → State → Prop} (h : ∀ a, Q a → post a state) :
    rule.Keeps (custody P) settings frames state post := by
  induction calm with
  | done holds => exact h _ holds
  | look _ ih => exact ih settings state
  | fail _ _ => exact held.fail _
  | halt reason => trivial

/-! ### The shared rules -/

namespace Rule

theorem carried_all (held : InCustody P state context) {nodes : List Node}
    (hold : ∀ node ∈ nodes, P node) :
    (all runtime context nodes).Keeps (custody P) settings frames state fun xs after =>
      after.Carries P ∧ ∀ x ∈ xs, x.Carries P := by
  induction nodes generalizing state with
  | nil => exact ⟨held.state, by simp⟩
  | cons node rest ih =>
      obtain ⟨here, others⟩ := List.forall_mem_cons.mp hold
      simp only [all, keeps_bind, keeps_evaluate, keeps_pure]
      refine ⟨held.visitNode here, fun x middle given => ?_⟩
      refine (ih (held.later given.1) others).mono fun xs after outcome => ?_
      exact ⟨outcome.1, List.forall_mem_cons.mpr ⟨given.2, outcome.2⟩⟩

theorem carried_each (held : InCustody P state context) {nodes : List Node}
    (hold : ∀ node ∈ nodes, P node) :
    (each runtime context nodes).Keeps (custody P) settings frames state
      fun _ after => after.Carries P := by
  induction nodes generalizing state with
  | nil => exact held.state
  | cons node rest ih =>
      obtain ⟨here, others⟩ := List.forall_mem_cons.mp hold
      simp only [each, keeps_bind, keeps_evaluate]
      exact ⟨held.visitNode here, fun x middle given => ih (held.later given.1) others⟩

theorem carried_last (held : InCustody P state context) {nodes : List Node}
    (hold : ∀ node ∈ nodes, P node) {result : Object} (carries : result.Carries P) :
    (last runtime context result nodes).Keeps (custody P) settings frames state
      ((custody P).gives state) := by
  induction nodes generalizing state result with
  | nil => exact ⟨held.state, carries⟩
  | cons node rest ih =>
      obtain ⟨here, others⟩ := List.forall_mem_cons.mp hold
      simp only [last, keeps_bind, keeps_evaluate]
      exact ⟨held.visitNode here, fun x middle given => ih (held.later given.1) others given.2⟩

theorem carried_blockIn (held : InCustody P state context) (scope : ScopeId) {body : List Node}
    (hold : ∀ node ∈ body, P node) :
    (blockIn runtime context scope body).Keeps (custody P) settings frames state
      ((custody P).gives state) := by
  have inner : InCustody P state { context with scope, returnScope := false } :=
    held.inContext ⟨held.context.parameters, held.context.yielded⟩
  simp only [blockIn, keeps_bind]
  refine (carried_each inner hold).mono fun _ after carries => ?_
  split
  · exact ⟨carries, trivial⟩
  · exact ⟨carries, (carries.scope scope).returned⟩

theorem carried_reduceWithin (held : InCustody P state context) (limit : Int) (remaining : Nat)
    {object : Object} (carries : object.Carries P) :
    (reduceWithin runtime context limit remaining object).Keeps (custody P) settings frames state
      fun _ after => after.Carries P := by
  induction remaining generalizing state object with
  | zero =>
      unfold reduceWithin
      split
      · exact held.state
      · split
        · exact held.fail _
        · exact held.fail _
  | succ remaining ih =>
      unfold reduceWithin
      split
      · exact held.state
      · split
        · simp only [keeps_bind, keeps_evaluate]
          exact ⟨held.visit carries, fun x middle given => ih (held.later given.1) given.2⟩
        · exact held.fail _

theorem carried_reduce (held : InCustody P state context) {node : Node} (holds : P node) :
    (reduce runtime context (.ofNode node)).Keeps (custody P) settings frames state
      fun _ after => after.Carries P := by
  simp only [reduce, keeps_bind, keeps_inspect]
  exact carried_reduceWithin held _ _ (Object.carries_ofNode holds)

theorem carried_reduceToBlockWithin (held : InCustody P state context) (limit : Int)
    (remaining : Nat) {object : Object} (carries : object.Carries P) :
    (reduceToBlockWithin runtime context limit remaining object).Keeps (custody P) settings frames
      state fun block after => after.Carries P ∧ P block := by
  induction remaining generalizing state object with
  | zero =>
      unfold reduceToBlockWithin
      split
      · exact held.fail _
      · exact ⟨held.state, carries⟩
      · exact held.fail _
  | succ remaining ih =>
      unfold reduceToBlockWithin
      split
      · simp only [keeps_bind, keeps_evaluate]
        exact ⟨held.visit carries, fun x middle given => ih (held.later given.1) given.2⟩
      · exact ⟨held.state, carries⟩
      · exact held.fail _

theorem carried_reduceToBlock (held : InCustody P state context) {node : Node} (holds : P node) :
    (reduceToBlock runtime context (.ofNode node)).Keeps (custody P) settings frames state
      fun block after => after.Carries P ∧ P block := by
  simp only [reduceToBlock, keeps_bind, keeps_inspect]
  exact carried_reduceToBlockWithin held _ _ (Object.carries_ofNode holds)

theorem carried_trace (carries : state.Carries P) (line : String) :
    (trace line).Keeps (custody P) settings frames state fun _ after => after.Carries P := by
  simp only [trace, keeps_bind, keeps_inspect]
  split
  · exact ⟨⟨trivial, trivial⟩, carries.record _⟩
  · exact carries

end Rule

/-! ### The builtins -/

namespace Builtin

theorem carried_freshSlot (held : InCustody P state context) {memory : Object}
    (carries : memory.Carries P) :
    (freshSlot runtime context memory).Keeps (custody P) settings frames state
      fun _ after => after.Carries P := by
  simp only [freshSlot, keeps_bind, keeps_evaluate]
  refine ⟨held.visit carries, fun x after given => ?_⟩
  have held' := held.later given.1
  refine (calm_memoryOf context x).carried held' fun found _ => ?_
  simp only [keeps_inspect]
  split
  · exact held'.fail _
  · exact given.1

theorem carried_writeSlot (held : InCustody P state context) (slot : Slot) {body : Object}
    (carries : body.Carries P) :
    (writeSlot context slot body).Keeps (custody P) settings frames state
      fun _ after => after.Carries P := by
  have added : Change.Carries P (.write slot context.scope body) := carries
  exact ⟨⟨added, trivial⟩, held.change added⟩

theorem carried_runDefine (held : InCustody P state context) {memory : Object}
    (carries : memory.Carries P) {yielded : Node} (holds : P yielded) :
    (runDefine runtime context memory yielded).Keeps (custody P) settings frames state
      ((custody P).gives state) := by
  simp only [runDefine, keeps_bind, keeps_pure]
  refine (carried_freshSlot held carries).mono fun slot after carried => ?_
  refine (carried_writeSlot (held.later carried) slot (Object.carries_ofNode holds)).mono ?_
  exact fun _ final written => ⟨written, trivial⟩

theorem carried_runDefineNow (held : InCustody P state context) {memory : Object}
    (carries : memory.Carries P) {yielded : Node} (holds : P yielded) :
    (runDefineNow runtime context memory yielded).Keeps (custody P) settings frames state
      ((custody P).gives state) := by
  simp only [runDefineNow, keeps_bind, keeps_pure]
  refine (carried_freshSlot held carries).mono fun slot after carried => ?_
  refine (carried_reduce (held.later carried) holds).mono fun value middle reduced => ?_
  have plain : (Object.value value).Carries P := trivial
  refine (carried_writeSlot (held.later reduced) slot plain).mono ?_
  exact fun _ final written => ⟨written, trivial⟩

theorem carried_runSet (held : InCustody P state context) (memory : Object) {yielded : Node}
    (holds : P yielded) :
    (runSet runtime context memory yielded).Keeps (custody P) settings frames state
      ((custody P).gives state) := by
  simp only [runSet, keeps_bind, keeps_pure]
  refine (calm_boundName memory).carried held fun name _ => ?_
  refine (carried_reduce held holds).mono fun value middle reduced => ?_
  have plain : (Object.value value).Carries P := trivial
  refine (carried_writeSlot (held.later reduced) _ plain).mono ?_
  exact fun _ final written => ⟨written, trivial⟩

theorem carried_runPrint (held : InCustody P state context) {invocation : Invocation}
    (frame : frames.head? = some (.builtin invocation)) (builtin : invocation.builtin = .print)
    (own : invocation.runtime = runtime) {value : Object} (carries : value.Carries P) :
    (runPrint runtime context value).Keeps (custody P) settings frames state
      ((custody P).gives state) := by
  simp only [runPrint, keeps_bind, keeps_evaluate, keeps_perform, keeps_pure]
  refine ⟨held.visit carries, fun x after given => ?_⟩
  have held' := held.later given.1
  have shown : Calm runtime (fun _ => True) (displayed x) := calm_displayed x
  refine shown.carried held' fun text _ => ?_
  have printed := held'.change (c := .print runtime text) trivial
  exact ⟨⟨trivial, invocation, frame, builtin, own⟩, printed, trivial⟩

theorem carried_runReturn (held : InCustody P state context) {value : Object}
    (carries : value.Carries P) :
    (runReturn context value).Keeps (custody P) settings frames state
      ((custody P).gives state) := by
  simp only [runReturn, keeps_bind, keeps_perform, keeps_pure]
  have added : Change.Carries P (.setReturned context.scope value) := carries
  exact ⟨⟨added, trivial⟩, held.change added, carries⟩

theorem carried_runObj (held : InCustody P state context) (memory : Object) {yielded : Node}
    (holds : P yielded) :
    (runObj runtime context memory yielded).Keeps (custody P) settings frames state
      ((custody P).gives state) := by
  simp only [runObj, keeps_bind]
  refine (calm_memoryOf context memory).carried held fun found _ => ?_
  refine (carried_reduceToBlock held holds).mono fun block middle reduced => ?_
  have held' := held.later reduced.1
  have inner : InCustody P middle { context with returnScope := true } :=
    held'.inContext ⟨held.context.parameters, held.context.yielded⟩
  simp only [keeps_evaluate]
  refine ⟨inner.visit reduced.2, fun x final given => ?_⟩
  split
  · simp only [keeps_bind, keeps_perform, keeps_pure]
    exact ⟨⟨trivial, trivial⟩, (held.later given.1).change trivial, trivial⟩
  · exact ⟨given.1, trivial⟩

theorem carried_runWhen (held : InCustody P state context) (wanted : Bool) {condition : Object}
    (carries : condition.Carries P) {yielded : Node} (holds : P yielded) :
    (runWhen runtime context wanted condition yielded).Keeps (custody P) settings frames state
      ((custody P).gives state) := by
  simp only [runWhen, keeps_bind, keeps_evaluate]
  refine ⟨held.visit carries, fun x after given => ?_⟩
  have held' := held.later given.1
  refine (calm_truthOf x).carried held' fun truth _ => ?_
  split
  · simp only [keeps_bind, keeps_evaluate, keeps_pure]
    exact ⟨held'.visitNode holds, fun _ final last => ⟨last.1, trivial⟩⟩
  · exact ⟨given.1, trivial⟩

theorem carried_runNot (held : InCustody P state context) {condition : Object}
    (carries : condition.Carries P) :
    (runNot runtime context condition).Keeps (custody P) settings frames state
      ((custody P).gives state) := by
  simp only [runNot, keeps_bind, keeps_evaluate, keeps_pure]
  refine ⟨held.visit carries, fun x after given => ?_⟩
  exact (calm_truthOf x).carried (held.later given.1) fun _ _ => ⟨given.1, trivial⟩

theorem carried_runIs (held : InCustody P state context) {value : Object}
    (carries : value.Carries P) {yielded : Node} (holds : P yielded) :
    (runIs runtime context value yielded).Keeps (custody P) settings frames state
      ((custody P).gives state) := by
  simp only [runIs, keeps_bind, keeps_evaluate, keeps_pure]
  refine ⟨held.visit carries, fun x after given => ?_⟩
  exact ⟨(held.later given.1).visitNode holds, fun _ final last => ⟨last.1, trivial⟩⟩

/-- What only computes a number, a text or a boolean gives no tree. -/
theorem carried_calm (held : InCustody P state context) {rule : Rule Object}
    (calm : Calm runtime Object.IsDatum rule) :
    rule.Keeps (custody P) settings frames state ((custody P).gives state) := by
  refine calm.carried held fun x datum => ⟨held.state, ?_⟩
  cases x with
  | value => trivial
  | _ => cases datum

end Builtin

theorem Invocation.carried_rule {invocation : Invocation}
    (held : InCustody P state invocation.context) (carries : invocation.Carries P) :
    invocation.rule.Keeps (custody P) settings (.builtin invocation :: frames) state
      ((custody P).gives state) := by
  have argument := Object.carries_getD carries.arguments
  have yielded := carries.yielded
  unfold Invocation.rule
  cases builtin : invocation.builtin with
  | define => exact Builtin.carried_runDefine held (argument 0) yielded
  | defineNow => exact Builtin.carried_runDefineNow held (argument 0) yielded
  | set => exact Builtin.carried_runSet held _ yielded
  | print => exact Builtin.carried_runPrint held rfl builtin rfl (argument 0)
  | param =>
      have found := Builtin.parameterAt_of_forall invocation.context
        (P := fun x => x.Carries P) trivial held.context.parameters
      exact ⟨held.state, found _⟩
  | yield => exact ⟨held.visitNode held.context.yielded, fun _ _ given => given⟩
  | «return» => exact Builtin.carried_runReturn held (argument 0)
  | add => exact Builtin.carried_calm held (Builtin.calm_runAdd _)
  | sub => exact Builtin.carried_calm held (Builtin.calm_runSub _ _)
  | mul => exact Builtin.carried_calm held (Builtin.calm_runMul _ _)
  | div => exact Builtin.carried_calm held (Builtin.calm_runDiv _ _)
  | str =>
      have calm : Calm invocation.runtime Object.IsDatum
          (Builtin.runStr (invocation.arguments.getD 0 .absent)) := Builtin.calm_runStr _
      exact Builtin.carried_calm held calm
  | num => exact Builtin.carried_calm held (Builtin.calm_runNum _)
  | obj => exact Builtin.carried_runObj held _ yielded
  | «if» => exact Builtin.carried_runWhen held true (argument 0) yielded
  | «unless» => exact Builtin.carried_runWhen held false (argument 0) yielded
  | not => exact Builtin.carried_runNot held (argument 0)
  | «exists» => exact Builtin.carried_calm held (Builtin.calm_runExists _)
  | is => exact Builtin.carried_runIs held (argument 0) yielded

end TreeScript
