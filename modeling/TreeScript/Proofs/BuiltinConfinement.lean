import TreeScript.Proofs.Confinement

/-!
# The builtins stay in the realm

One lemma for each builtin that evaluates or changes anything; the others only compute a datum. What
is written, returned or attached comes from the arguments, from the scope of the call, or from what
was evaluated, so it leads nowhere else.
-/

namespace TreeScript

open Rule

variable {settings : Settings} {realm : Realm} {origin state : State}
variable {frames : List Frame} {runtime : RuntimeId} {context : Context}

namespace Builtin

/-- A name is bound to a function of the scope around. -/
theorem confined_writeSlot (active : Active realm origin state runtime context) {slot : Slot}
    (inside : realm.scopes slot.scope) {body : Object}
    (plain : body.isNode = true ∨ body.In realm) :
    (writeSlot context slot body).Keeps (confinement settings realm origin) settings frames state
      fun _ after => Onward realm origin state after := by
  have into : Change.In realm state (.write slot context.scope body) :=
    ⟨inside, active.scope, plain⟩
  exact ⟨into, .change active.confined into⟩

theorem confined_freshSlot (active : Active realm origin state runtime context) {memory : Object}
    (into : memory.In realm) :
    (freshSlot runtime context memory).Keeps (confinement settings realm origin) settings frames
      state fun slot after => Onward realm origin state after ∧ realm.scopes slot.scope := by
  simp only [freshSlot, keeps_bind, keeps_evaluate, keeps_inspect]
  refine ⟨active.visit into, fun x middle given => ?_⟩
  refine (confined_memoryOf (active.later given.1) given.2).mono fun found after outcome => ?_
  obtain ⟨rfl, inside⟩ := outcome
  split
  · exact confinement_fail rfl _
  · exact ⟨given.1, inside⟩

theorem confined_runDefine (active : Active realm origin state runtime context) {memory : Object}
    (into : memory.In realm) (yielded : Node) :
    (runDefine runtime context memory yielded).Keeps (confinement settings realm origin) settings
      frames state ((confinement settings realm origin).gives state) := by
  simp only [runDefine, keeps_bind]
  refine (confined_freshSlot active into).mono fun slot middle outcome => ?_
  obtain ⟨onward, inside⟩ := outcome
  have active' := active.later onward
  refine (confined_writeSlot active' inside (Object.node_or_in realm yielded)).mono
    fun _ after written => ?_
  exact ⟨onward.trans written, Object.in_absent realm⟩

theorem confined_runDefineNow (active : Active realm origin state runtime context)
    {memory : Object} (into : memory.In realm) (yielded : Node) :
    (runDefineNow runtime context memory yielded).Keeps (confinement settings realm origin) settings
      frames state ((confinement settings realm origin).gives state) := by
  simp only [runDefineNow, keeps_bind]
  refine (confined_freshSlot active into).mono fun slot middle outcome => ?_
  obtain ⟨onward, inside⟩ := outcome
  have active' := active.later onward
  refine (confined_reduce active' yielded).mono fun value last reduced => ?_
  have active'' := active'.later reduced.1
  refine (confined_writeSlot active'' inside (.inr reduced.2)).mono fun _ after written => ?_
  exact ⟨(onward.trans reduced.1).trans written, Object.in_absent realm⟩

theorem confined_boundName (realm : Realm) (origin : State) (memory : Object) :
    (boundName runtime context memory).Keeps (confinement settings realm origin) settings frames
      state fun _ after => after = state :=
  (calm_boundName memory).confined fun _ _ => rfl

theorem confined_runSet (active : Active realm origin state runtime context) (memory : Object)
    (yielded : Node) :
    (runSet runtime context memory yielded).Keeps (confinement settings realm origin) settings
      frames state ((confinement settings realm origin).gives state) := by
  simp only [runSet, keeps_bind]
  refine (confined_boundName realm origin memory).mono fun name same eq => ?_
  subst eq
  refine (confined_reduce active yielded).mono fun value last reduced => ?_
  have active' := active.later reduced.1
  have inside : realm.scopes (Slot.mk context.scope name).scope := active.scope
  refine (confined_writeSlot active' inside (.inr reduced.2)).mono fun _ after written => ?_
  exact ⟨reduced.1.trans written, Object.in_absent realm⟩

theorem confined_runPrint (active : Active realm origin state runtime context) {value : Object}
    (into : value.In realm) :
    (runPrint runtime context value).Keeps (confinement settings realm origin) settings frames state
      ((confinement settings realm origin).gives state) := by
  simp only [runPrint, keeps_bind, keeps_evaluate, keeps_perform, keeps_pure]
  refine ⟨active.visit into, fun x after given => ?_⟩
  have shown : Calm runtime (fun _ => True) (displayed x) := calm_displayed x
  refine shown.confined fun text _ => ?_
  exact ⟨trivial, given.1.trans (.change given.1.confined trivial), Object.in_absent realm⟩

theorem confined_runReturn (active : Active realm origin state runtime context) {value : Object}
    (into : value.In realm) :
    (runReturn context value).Keeps (confinement settings realm origin) settings frames state
      ((confinement settings realm origin).gives state) := by
  simp only [runReturn, keeps_bind, keeps_perform, keeps_pure]
  have set : Change.In realm state (.setReturned context.scope value) := ⟨active.scope, into⟩
  exact ⟨set, .change active.confined set, into⟩

/-- A namespace is made of a block, and only if the yield subtree is one. -/
theorem confined_runObj (active : Active realm origin state runtime context) {memory : Object}
    (into : memory.In realm) (yielded : Node) :
    (runObj runtime context memory yielded).Keeps (confinement settings realm origin) settings
      frames state fun x after => (confinement settings realm origin).gives state x after ∧
        ∃ body place, yielded = .block body place := by
  simp only [runObj, keeps_bind]
  refine (confined_memoryOf active into).mono fun found same outcome => ?_
  obtain ⟨rfl, -⟩ := outcome
  refine (confined_reduceToBlock active yielded).mono fun block same outcome => ?_
  obtain ⟨rfl, rfl, isBlock⟩ := outcome
  have active' : Active realm origin same runtime { context with returnScope := true } :=
    { active with scope := active.scope, parameters := active.parameters }
  obtain ⟨body, place, rfl⟩ := isBlock
  simp only [keeps_evaluate]
  refine ⟨⟨active', .inl rfl⟩, fun space after given => ?_⟩
  split
  · rename_i id
    have child : realm.scopes id := given.2.target id rfl
    have attached : Change.In realm after (.attach context.scope found.1 id) :=
      ⟨active.scope, child⟩
    exact ⟨attached, ⟨given.1.trans (.change given.1.confined attached), Object.in_absent realm⟩,
      body, place, rfl⟩
  · exact ⟨⟨given.1, Object.in_absent realm⟩, body, place, rfl⟩

theorem confined_runWhen (active : Active realm origin state runtime context) (wanted : Bool)
    {condition : Object} (into : condition.In realm) (yielded : Node) :
    (runWhen runtime context wanted condition yielded).Keeps (confinement settings realm origin)
      settings frames state ((confinement settings realm origin).gives state) := by
  simp only [runWhen, keeps_bind, keeps_evaluate]
  refine ⟨active.visit into, fun x middle given => ?_⟩
  refine (calm_truthOf x).confined fun holds _ => ?_
  split
  · simp only [keeps_bind, keeps_evaluate, keeps_pure]
    refine ⟨(active.later given.1).visitNode yielded, fun y after given' => ?_⟩
    exact ⟨given.1.trans given'.1, Object.IsDatum.into trivial⟩
  · exact ⟨given.1, Object.IsDatum.into trivial⟩

theorem confined_runNot (active : Active realm origin state runtime context) {condition : Object}
    (into : condition.In realm) :
    (runNot runtime context condition).Keeps (confinement settings realm origin) settings frames
      state ((confinement settings realm origin).gives state) := by
  simp only [runNot, keeps_bind, keeps_evaluate]
  refine ⟨active.visit into, fun x after given => ?_⟩
  exact (calm_truthOf x).confined fun holds _ => ⟨given.1, Object.IsDatum.into trivial⟩

theorem confined_runIs (active : Active realm origin state runtime context) {value : Object}
    (into : value.In realm) (yielded : Node) :
    (runIs runtime context value yielded).Keeps (confinement settings realm origin) settings frames
      state ((confinement settings realm origin).gives state) := by
  simp only [runIs, keeps_bind, keeps_evaluate, keeps_pure]
  refine ⟨active.visit into, fun left middle given => ?_⟩
  refine ⟨(active.later given.1).visitNode yielded, fun right after given' => ?_⟩
  exact ⟨given.1.trans given'.1, Object.IsDatum.into trivial⟩

end Builtin

/-- A builtin that only computes gives a datum. -/
theorem Rule.Calm.gives {rule : Rule Object} (calm : Calm runtime Object.IsDatum rule)
    (confined : Confined realm origin state) :
    rule.Keeps (confinement settings realm origin) settings frames state
      ((confinement settings realm origin).gives state) :=
  calm.confined fun _ datum => ⟨.refl confined, datum.into⟩

theorem Invocation.confined_rule (invocation : Invocation)
    (active : Active realm origin state invocation.runtime invocation.context)
    (into : ∀ x ∈ invocation.arguments, x.In realm) :
    invocation.rule.Keeps (confinement settings realm origin) settings frames state
      ((confinement settings realm origin).gives state) := by
  have argument (i : Nat) : (invocation.arguments.getD i .absent).In realm :=
    Builtin.getD_of_forall (Object.in_absent realm) into i
  have confined := active.confined
  unfold Invocation.rule
  cases invocation.builtin with
  | define => exact Builtin.confined_runDefine active (argument 0) _
  | defineNow => exact Builtin.confined_runDefineNow active (argument 0) _
  | set => exact Builtin.confined_runSet active _ _
  | print => exact Builtin.confined_runPrint active (argument 0)
  | param =>
      have absent := Object.in_absent realm
      exact ⟨.refl confined, Builtin.parameterAt_of_forall _ absent active.parameters _⟩
  | yield => exact ⟨active.visitNode _, fun x after given => given⟩
  | «return» => exact Builtin.confined_runReturn active (argument 0)
  | add => exact (Builtin.calm_runAdd _).gives confined
  | sub => exact (Builtin.calm_runSub _ _).gives confined
  | mul => exact (Builtin.calm_runMul _ _).gives confined
  | div => exact (Builtin.calm_runDiv _ _).gives confined
  | str =>
      have calm : Calm invocation.runtime Object.IsDatum
          (Builtin.runStr (invocation.arguments.getD 0 .absent)) := Builtin.calm_runStr _
      exact calm.gives confined
  | num => exact (Builtin.calm_runNum _).gives confined
  | obj => exact (Builtin.confined_runObj active (argument 0) _).mono fun x after given => given.1
  | «if» => exact Builtin.confined_runWhen active true (argument 0) _
  | «unless» => exact Builtin.confined_runWhen active false (argument 0) _
  | not => exact Builtin.confined_runNot active (argument 0)
  | «exists» => exact (Builtin.calm_runExists _).gives confined
  | is => exact Builtin.confined_runIs active (argument 0) _

end TreeScript
