import TreeScript.Proofs.Custody
import TreeScript.Proofs.Soundness

/-!
# What runs hand on

Every rule keeps the custody of trees, those for imports and for the kinds of nodes included. So a
run that is handed trees with a hereditary property alone, by the program, the files, the modules
and the state, meets no other trees, and neither does whatever runs after it.
-/

namespace TreeScript

open Rule

variable {P : Node → Prop} {settings : Settings} {frames : List Frame} {state after : State}
variable {runtime : RuntimeId} {context : Context} {α : Type}

/-! ### Imports -/

theorem carried_marked (held : InCustody P state context) {node : Node} (holds : P node) :
    (marked node).Keeps (custody P) settings frames state fun node after =>
      after.Carries P ∧ P node := by
  simp only [marked, keeps_bind, keeps_inspect, keeps_perform, keeps_pure]
  exact ⟨⟨trivial, trivial⟩, held.change trivial, held.hereditary.mark _ holds⟩

theorem carried_evaluateFile {scope : ScopeId} (held : InCustody P state { scope }) (place : Place)
    {program : Node} (holds : P program) :
    (evaluateFile runtime place program scope).Keeps (custody P) settings frames state
      ((custody P).gives state) := by
  simp only [evaluateFile, keeps_bind, keeps_perform, keeps_evaluate, keeps_pure]
  have began := held.change (c := .begin place) trivial
  refine ⟨⟨trivial, trivial⟩, (held.later began).visitNode holds, fun x after given => ?_⟩
  exact ⟨⟨trivial, trivial⟩, (held.later given.1).change trivial, given.2⟩

theorem carried_evaluateModule (held : InCustody P state context) (place : Place) {program : Node}
    (holds : P program) :
    (evaluateModule runtime place program).Keeps (custody P) settings frames state
      fun _ after => after.Carries P := by
  simp only [evaluateModule, keeps_bind, keeps_inspect, keeps_perform, keeps_pure, keeps_inside]
  refine (carried_marked held holds).mono fun program before marked => ?_
  have added := (held.later marked.1).change (c := .addRuntime runtime place.up) trivial
  refine ⟨⟨trivial, trivial⟩, ⟨trivial, trivial⟩, ?_⟩
  generalize Change.apply before (.addRuntime runtime place.up) = start at added ⊢
  have frame : Frame.Carries P (.loading runtime place) := trivial
  have entered : InCustody P (Frame.enter start (.loading runtime place))
      { scope := (start.runtime before.runtimes.size).root } :=
    ⟨held.hereditary, frame.enter added, ⟨by simp, held.hereditary.absent⟩⟩
  refine (carried_evaluateFile entered place marked.2).mono fun x after given => ?_
  have left := given.1.leave (.loading runtime place)
  exact ⟨⟨trivial, trivial⟩, (held.later left).change trivial⟩

theorem LoadFault.carries_interrupt {fault : LoadFault} {reason : Interrupt}
    (found : fault.interrupt? = some reason) : reason.Carries P := by
  rcases LoadFault.eq_of_interrupt? found with ⟨message, rfl⟩ | rfl <;> trivial

theorem carried_moduleOfFile (held : InCustody P state context) (files : settings.files.Carries P)
    (place : Place) :
    (moduleOfFile runtime place).Keeps (custody P) settings frames state
      fun _ after => after.Carries P := by
  simp only [moduleOfFile, keeps_bind, keeps_inspect]
  split
  · exact held.state
  · simp only [keeps_bind, keeps_inspect]
    split
    · exact held.fail _
    · simp only [keeps_bind, keeps_inspect]
      split
      · split
        · rename_i reason found
          exact LoadFault.carries_interrupt found
        · exact held.fail _
      · rename_i program found
        exact carried_evaluateModule held place (files place program found)

theorem carried_localModule (held : InCustody P state context) (files : settings.files.Carries P)
    (name : String) :
    (localModule runtime name).Keeps (custody P) settings frames state
      fun _ after => after.Carries P := by
  simp only [localModule, keeps_bind, keeps_inspect]
  split
  · trivial
  · exact held.fail _
  · exact carried_moduleOfFile held files _

theorem Recipe.carried_rule (held : InCustody P state context) (name : String) {recipe : Recipe}
    (carries : recipe.Carries P) :
    (recipe.rule name).Keeps (custody P) settings frames state fun _ after => after.Carries P := by
  cases recipe with
  | scope blueprint =>
      have added : Change.Carries P (.build blueprint) := carries
      exact ⟨⟨added, trivial⟩, held.change added⟩
  | existing id => exact held.state
  | other kind | crash message => trivial

theorem carried_registeredModule (held : InCustody P state context) (id : RegistryId)
    (name : String) :
    (registeredModule id name).Keeps (custody P) settings frames state
      fun _ after => after.Carries P := by
  simp only [registeredModule, keeps_bind, keeps_inspect]
  split
  · exact held.state
  · exact held.state
  · rename_i factory found
    have pending := held.state.modules id _ (Table.mem_of_find? found)
    simp only [keeps_bind, keeps_inspect, keeps_perform, keeps_pure]
    have ran := held.change (c := .runFactory factory.label) trivial
    refine ⟨⟨trivial, trivial⟩, ?_⟩
    refine (Recipe.carried_rule (held.later ran) name (pending _)).mono fun scope after built => ?_
    exact ⟨⟨trivial, trivial⟩, (held.later built).change trivial⟩

theorem carried_moduleOf (held : InCustody P state context) (files : settings.files.Carries P)
    (name : String) :
    (moduleOf runtime name).Keeps (custody P) settings frames state
      fun _ after => after.Carries P := by
  unfold moduleOf
  split
  · rw [map_eq_pure_bind]
    simp only [keeps_bind, keeps_pure]
    exact carried_localModule held files name
  · simp only [keeps_bind, keeps_inspect]
    exact carried_registeredModule held _ name

theorem carried_importModule (held : InCustody P state context) (files : settings.files.Carries P)
    {node : Node} (holds : P node) (name : String) :
    (importModule runtime node name).Keeps (custody P) settings frames state
      ((custody P).gives state) := by
  simp only [importModule, keeps_bind]
  refine (carried_moduleOf held files name).mono fun found after carried => ?_
  cases found with
  | none => exact holds
  | some scope =>
      simp only [keeps_bind, keeps_inspect, keeps_perform, keeps_pure]
      refine (carried_trace carried _).mono fun _ last traced => ?_
      exact ⟨⟨trivial, trivial⟩, (held.later traced).change trivial, trivial⟩

/-! ### Calls and nodes -/

theorem Procedure.carried_rule (held : InCustody P state context) {procedure : Procedure}
    (carries : procedure.Carries P) {arguments : List Object}
    (given : ∀ x ∈ arguments, x.Carries P) {yielded : Node} (holds : P yielded) :
    (procedure.rule context arguments yielded).Keeps (custody P) settings frames state
      ((custody P).gives state) := by
  cases procedure with
  | constant result => exact ⟨held.state, carries⟩
  | argument index => exact ⟨held.state, Object.carries_getD given index⟩
  | yieldTree => exact ⟨held.state, Object.carries_ofNode holds⟩
  | refuse kind message => exact held.hereditary.absent
  | crash message => trivial
  | argumentCount | currentScope | describeContext => exact ⟨held.state, trivial⟩

theorem carried_customArguments (held : InCustody P state context) {parameters : List Node}
    (hold : ∀ node ∈ parameters, P node) :
    (customArguments runtime context parameters).Keeps (custody P) settings frames state
      fun xs after => after.Carries P ∧ ∀ x ∈ xs, x.Carries P := by
  unfold customArguments
  split
  · exact ⟨held.state, held.context.parameters⟩
  · exact carried_all held hold

theorem carried_callEntry (held : InCustody P state context) (name : String)
    {parameters : List Node} (hold : ∀ node ∈ parameters, P node) {yielded : Node}
    (holds : P yielded) {entry : Entry} (carries : entry.Carries P) :
    (callEntry runtime context name parameters yielded entry).Keeps (custody P) settings frames
      state ((custody P).gives state) := by
  cases entry with
  | builtin owner builtin =>
      simp only [callEntry, keeps_bind, traceProcedure, keeps_inside]
      refine (carried_all held hold).mono fun arguments middle given => ?_
      refine (carried_trace given.1 _).mono fun _ after traced => ?_
      have invoked : Invocation.Carries P ⟨builtin, owner, context, arguments, yielded⟩ :=
        ⟨held.context, given.2, holds⟩
      refine ⟨⟨invoked, trivial⟩, ?_⟩
      exact (Invocation.carried_rule (held.later traced) invoked).mono
        fun x final outcome => ⟨outcome.1.leave _, outcome.2⟩
  | host label procedure =>
      simp only [callEntry, keeps_bind, traceProcedure]
      refine (carried_all held hold).mono fun arguments middle given => ?_
      refine (carried_trace given.1 _).mono fun _ after traced => ?_
      exact Procedure.carried_rule (held.later traced) carries given.2 holds
  | custom closure body =>
      simp only [callEntry, keeps_bind, traceCustom, keeps_evaluate]
      refine (carried_customArguments held hold).mono fun arguments middle given => ?_
      refine (carried_trace given.1 _).mono fun _ after traced => ?_
      have inner : InCustody P after { scope := closure, parameters := arguments, yielded } :=
        (held.later traced).inContext ⟨given.2, holds⟩
      exact ⟨inner.visit carries, fun x final outcome => outcome⟩
  | inert datum => exact held.fail _

theorem carried_resolveAndCall (held : InCustody P state context) (name : String)
    {parameters : List Node} (hold : ∀ node ∈ parameters, P node) {yielded : Node}
    (holds : P yielded) :
    (resolveAndCall runtime context name parameters yielded).Keeps (custody P) settings frames state
      ((custody P).gives state) := by
  simp only [resolveAndCall, keeps_bind, keeps_inspect]
  split
  · exact held.fail _
  · rename_i found
    exact carried_callEntry held name hold holds (held.state.resolve found)

/-- The files matter only if there are imports with the property. -/
theorem carried_nodeRule (held : InCustody P state context)
    (files : ∀ name origin, P (.moduleImport name origin) → settings.files.Carries P) {node : Node}
    (holds : P node) :
    (nodeRule runtime context node).Keeps (custody P) settings frames state
      ((custody P).gives state) := by
  cases node with
  | absent => exact ⟨held.state, trivial⟩
  | list mark items => exact ⟨held.state, holds⟩
  | number | text | boolean | memory => exact ⟨held.state, trivial⟩
  | call name parameters yielded origin =>
      obtain ⟨hold, under⟩ := held.hereditary.call holds
      have frame : Frame.Carries P (.call runtime (.call name parameters yielded origin)) := holds
      refine ⟨⟨frame, trivial⟩, ?_⟩
      have entered := held.later (frame.enter held.state)
      exact (carried_resolveAndCall entered name hold under).mono
        fun x after given => ⟨given.1.leave _, given.2⟩
  | block body origin =>
      simp only [nodeRule, evaluateBlock, keeps_bind, keeps_inspect, keeps_perform]
      have opened := held.change (c := .openScope context.scope) trivial
      refine ⟨⟨trivial, trivial⟩, ?_⟩
      exact carried_blockIn (held.later opened) _ (held.hereditary.block holds)
  | program body origin =>
      simp only [nodeRule, keeps_bind, keeps_pure]
      exact (carried_each held (held.hereditary.program holds)).mono
        fun _ after carried => ⟨carried, trivial⟩
  | group body origin => exact carried_last held (held.hereditary.group holds) trivial
  | moduleImport name origin =>
      exact carried_importModule held (files name origin holds) holds name

/-- The rule of every part hands on what it is given. The files matter only if there are imports
with the property. -/
theorem custody_kept (hereditary : Node.Hereditary P)
    (files : ∀ name origin, P (.moduleImport name origin) → settings.files.Carries P) :
    (custody P).Kept settings := by
  rintro runtime object context frames state ⟨known, carries, around⟩
  have held : InCustody P state context := ⟨hereditary, known, around⟩
  unfold evaluateStep
  split
  · split
    · simp only [evaluateNode, keeps_bind, keeps_perform]
      rename_i node _
      have visited : Change.Carries P (.visit runtime node) := carries
      exact ⟨⟨visited, trivial⟩, carried_nodeRule (held.later (held.change visited)) files carries⟩
    · exact ⟨known, carries⟩
  · exact ⟨known, carries⟩

/-! ### Programs -/

theorem Moment.carries_next (hereditary : Node.Hereditary P) (moment : Moment)
    (known : moment.state.Carries P)
    (carries : moment.deed.Carries P moment.frames moment.state) :
    moment.nextState.Carries P := by
  obtain ⟨depth, frames, state, deed⟩ := moment
  cases deed with
  | change c => exact carries.1.apply hereditary known
  | enter frame => exact Frame.Carries.enter known carries
  | leave frame => exact known.leave frame
  | fail runtime cause node => exact known.reportError runtime cause
  | visit _ _ _ | halt _ => exact known

/-- What ends an evaluation at a moment is about a tree with the property. -/
theorem Moment.carries_reason (moment : Moment) (known : moment.state.Carries P)
    (carries : moment.deed.Carries P moment.frames moment.state) {reason : Interrupt}
    (ends : moment.reason? = some reason) : reason.Carries P := by
  obtain ⟨depth, frames, state, deed⟩ := moment
  cases deed with
  | fail runtime cause node =>
      cases ends
      exact known.error runtime cause carries
  | halt reason =>
      cases ends
      exact carries
  | visit runtime object context =>
      cases depth with
      | zero =>
          cases ends
          trivial
      | succ depth => cases ends
  | change _ | enter _ | leave _ => cases ends

namespace Runner

theorem carried_registerAll (held : InCustody P state context) (registry : RegistryId)
    {modules : List (String × Source)} (carry : ∀ entry ∈ modules, entry.2.Carries P) :
    (registerAll registry modules).Keeps (custody P) settings frames state
      fun _ after => after.Carries P := by
  induction modules generalizing state with
  | nil => exact held.state
  | cons entry rest ih =>
      obtain ⟨name, source⟩ := entry
      obtain ⟨here, others⟩ := List.forall_mem_cons.mp carry
      simp only [registerAll, keeps_bind, keeps_inspect]
      split
      · trivial
      · simp only [keeps_bind, keeps_perform]
        have added : Change.Carries P (.register registry name source) := here
        exact ⟨⟨added, trivial⟩, ih (held.later (held.change added)) others⟩

theorem carried_programRule (hereditary : Node.Hereditary P) (known : state.Carries P)
    (runner : Runner)
    (modules : ∀ entry ∈ runner.modules, entry.2.Carries P) (place : Option Place) {program : Node}
    (holds : P program) :
    (runner.programRule place program).Keeps (custody P) settings [] state
      ((custody P).gives state) := by
  have anywhere (scope : ScopeId) : Context.Carries P { scope } :=
    ⟨by simp, hereditary.absent⟩
  have held : InCustody P state { scope := 0 } := ⟨hereditary, known, anywhere 0⟩
  simp only [programRule, keeps_bind, keeps_inspect]
  refine (carried_registerAll held _ modules).mono fun _ middle registered => ?_
  refine (carried_marked (held.later registered) holds).mono fun program after marked => ?_
  have held' := (held.later marked.1).inContext (anywhere (after.runtime runner.runtime).root)
  cases place with
  | none => exact ⟨held'.visitNode marked.2, fun x last given => given⟩
  | some place => exact carried_evaluateFile held' place marked.2

/-- In a run that is handed trees with a hereditary property alone, whatever is dealt with at a
moment has it, and so has everything that is known in the end and that a result or an error is
about. Of the files nothing is asked if no import has the property. -/
theorem run_custody (hereditary : Node.Hereditary P) (known : state.Carries P)
    (files : ∀ name origin, P (.moduleImport name origin) → settings.files.Carries P)
    (runner : Runner)
    (modules : ∀ entry ∈ runner.modules, entry.2.Carries P) (depth : Nat) (place : Option Place)
    {program : Node} (holds : P program) :
    (∀ m ∈ runner.moments settings depth place program state,
      m.deed.Carries P m.frames m.state) ∧
    (runner.evaluateProgram depth place program settings state).2.Carries P ∧
    ∀ reason after, runner.evaluateProgram depth place program settings state =
      (.error reason, after) → reason.Carries P := by
  have keeps : (runner.programRule place program).Keeps (custody P) settings [] state _ :=
    carried_programRule hereditary known runner modules place holds
  have allowed := (keeps.sound (custody_kept hereditary files) depth).2
  have linked := runner.moments_linked settings depth place program state
  obtain ⟨final, middle⟩ := linked.invariant (P := fun _ state => state.Carries P)
    (fun m mem known => m.carries_next hereditary known (allowed m mem)) known
  refine ⟨allowed, final, fun reason after ended => ?_⟩
  have ends := (runner.programRule place program).moments_endsFor settings depth [] state
  have result : (runner.programRule place program).run (evaluate depth) settings state =
      (.error reason, after) := ended
  rw [result] at ends
  obtain ⟨before, last, rest, split, why, -, -⟩ := ends
  have mem : last ∈ runner.moments settings depth place program state := by
    unfold moments
    rw [split]
    exact List.mem_append_right _ (List.mem_cons_self ..)
  exact last.carries_reason (middle last mem) (allowed last mem) why

theorem run_carries (hereditary : Node.Hereditary P) (known : state.Carries P)
    (files : settings.files.Carries P) (runner : Runner)
    (modules : ∀ entry ∈ runner.modules, entry.2.Carries P) (depth : Nat) (place : Option Place)
    {program : Node} (holds : P program) :
    (∀ m ∈ runner.moments settings depth place program state,
      m.deed.Carries P m.frames m.state) ∧
    (runner.evaluateProgram depth place program settings state).2.Carries P ∧
    ∀ reason after, runner.evaluateProgram depth place program settings state =
      (.error reason, after) → reason.Carries P :=
  runner.run_custody hereditary known (fun _ _ _ => files) modules depth place holds

end Runner

end TreeScript
