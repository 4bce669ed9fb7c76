import TreeScript.Proofs.Discipline

/-!
# The builtins keep the discipline

One lemma for each builtin, which holds within any frames in which the builtin may be carried out.
`def` and `defI` find their slot free when they look at its name, and `set` finds it bound.
-/

namespace TreeScript.Builtin

open Rule

variable {hosted : Bool} {first : Nat} {settings : Settings} {frames : List Frame} {state : State}
variable {runtime : RuntimeId} {context : Context} {invocation : Invocation}

theorem keeps_freshSlot (ready : Ready hosted first frames state runtime context) {memory : Object}
    (valid : memory.Valid (state.extent hosted)) :
    (freshSlot runtime context memory).Keeps (discipline hosted first) settings frames state
      fun slot after => Later hosted state after ∧ slot.scope < after.heap.scopes.size ∧
        (hosted = false → after.heap.isBound slot = false) := by
  simp only [freshSlot, keeps_bind, keeps_evaluate]
  refine ⟨ready.visit (.inr valid), fun x after given => ?_⟩
  have ready' := ready.later given.1
  refine keeps_memoryOf ready' given.2 fun name slot inside named => ?_
  simp only [keeps_inspect]
  split
  · exact ready'.fail _
  · rename_i free
    refine ⟨given.1, inside, fun unhosted => ?_⟩
    simpa [Heap.isBound, named unhosted] using free

theorem keeps_writeSlot (ready : Ready hosted first frames state runtime context)
    (frame : frames.head? = some (.builtin invocation)) (same : invocation.context = context)
    {slot : Slot} (inside : slot.scope < state.heap.scopes.size)
    (may : invocation.MayWrite hosted state slot) {body : Object}
    (valid : body.Evaluable (state.extent hosted)) :
    (writeSlot context slot body).Keeps (discipline hosted first) settings frames state
      fun _ after => Later hosted state after := by
  have safe : Change.Safe hosted state (.write slot context.scope body) :=
    ⟨inside, ready.context.scope, valid⟩
  refine ⟨discipline_change ready.sound safe ⟨invocation, frame, may, ?_⟩, ?_⟩
  · rw [same]
  · exact .change ready.sound safe

theorem keeps_runDefine (ready : Ready hosted first frames state runtime context)
    (frame : frames.head? = some (.builtin invocation)) (same : invocation.context = context)
    (builtin : invocation.builtin = .define) {memory : Object}
    (valid : memory.Valid (state.extent hosted)) (yielded : Node) :
    (runDefine runtime context memory yielded).Keeps (discipline hosted first) settings frames state
      ((discipline hosted first).gives state) := by
  simp only [runDefine, keeps_bind, keeps_pure]
  refine (keeps_freshSlot ready valid).mono fun slot after outcome => ?_
  obtain ⟨later, inside, free⟩ := outcome
  have may : invocation.MayWrite hosted after slot := by
    simpa [Invocation.MayWrite, builtin] using free
  refine (keeps_writeSlot (ready.later later) frame same inside may
    (Object.evaluable_ofNode _ yielded)).mono fun _ final later' => ?_
  exact ⟨later.trans later', trivial⟩

theorem keeps_runDefineNow (ready : Ready hosted first frames state runtime context)
    (frame : frames.head? = some (.builtin invocation)) (same : invocation.context = context)
    (builtin : invocation.builtin = .defineNow) {memory : Object}
    (valid : memory.Valid (state.extent hosted)) (yielded : Node) :
    (runDefineNow runtime context memory yielded).Keeps (discipline hosted first) settings frames
      state ((discipline hosted first).gives state) := by
  simp only [runDefineNow, keeps_bind, keeps_pure]
  refine (keeps_freshSlot ready valid).mono fun slot after outcome => ?_
  obtain ⟨later, inside, _⟩ := outcome
  refine (keeps_reduce (ready.later later) yielded).mono fun value next outcome => ?_
  obtain ⟨later', reduced⟩ := outcome
  have may : invocation.MayWrite hosted next slot := by simp [Invocation.MayWrite, builtin]
  have later'' := later.trans later'
  refine (keeps_writeSlot (ready.later later'') frame same
    (Nat.lt_of_lt_of_le inside later'.grows.heap.size) may
    (Object.evaluable_value reduced)).mono fun _ final last => ?_
  exact ⟨later''.trans last, trivial⟩

theorem keeps_runSet (ready : Ready hosted first frames state runtime context)
    (frame : frames.head? = some (.builtin invocation)) (same : invocation.context = context)
    (builtin : invocation.builtin = .set) {memory : Object}
    (valid : memory.Valid (state.extent hosted)) (yielded : Node) :
    (runSet runtime context memory yielded).Keeps (discipline hosted first) settings frames state
      ((discipline hosted first).gives state) := by
  simp only [runSet, boundName, keeps_bind, keeps_pure]
  refine keeps_memoryOf ready valid fun name slot _ _ => ?_
  simp only [keeps_inspect]
  split
  · rename_i bound
    refine (keeps_reduce ready yielded).mono fun value after outcome => ?_
    obtain ⟨later, reduced⟩ := outcome
    have may : invocation.MayWrite hosted after ⟨context.scope, name⟩ := by
      have : after.heap.isBound ⟨context.scope, name⟩ = true :=
        later.grows.isBound ready.context.scope bound
      simpa [Invocation.MayWrite, builtin] using this
    have ready' := ready.later later
    refine (keeps_writeSlot ready' frame same ready'.context.scope may
      (Object.evaluable_value reduced)).mono fun _ final last => ?_
    exact ⟨later.trans last, trivial⟩
  · exact ready.fail _

theorem keeps_runPrint (ready : Ready hosted first frames state runtime context) {value : Object}
    (valid : value.Valid (state.extent hosted)) :
    (runPrint runtime context value).Keeps (discipline hosted first) settings frames state
      ((discipline hosted first).gives state) := by
  simp only [runPrint, keeps_bind, keeps_evaluate, keeps_perform, keeps_pure]
  refine ⟨ready.visit (.inr valid), fun x after given => ?_⟩
  refine keeps_displayed (ready.later given.1) x fun text => ?_
  have sound := given.1.sound
  exact ⟨discipline_change sound trivial trivial, given.1.trans (.change sound trivial), trivial⟩

theorem valid_parameterAt {extent : Extent} (valid : context.Valid extent) (index : Object) :
    (parameterAt context index).Valid extent :=
  parameterAt_of_forall context (by trivial) valid.parameters index

theorem keeps_runReturn (ready : Ready hosted first frames state runtime context) {value : Object}
    (valid : value.Valid (state.extent hosted)) :
    (runReturn context value).Keeps (discipline hosted first) settings frames state
      ((discipline hosted first).gives state) := by
  simp only [runReturn, keeps_bind, keeps_perform, keeps_pure]
  have later := Later.change ready.sound (c := .setReturned context.scope value) valid
  exact ⟨discipline_change ready.sound valid trivial, later, valid.mono later.within⟩

/-- What only computes a number or a text from the arguments gives a valid value or an error. -/
theorem keeps_runAdd (ready : Ready hosted first frames state runtime context)
    (arguments : List Object) :
    (runAdd runtime arguments).Keeps (discipline hosted first) settings frames state
      ((discipline hosted first).gives state) := by
  unfold runAdd
  split
  · exact ready.fail _
  · split
    · exact ready.fail _
    · split
      · simp only [keeps_bind, keeps_pure]
        exact keeps_ofArithmetic ready fun _ => ⟨.refl ready.sound, trivial⟩
      · exact ⟨.refl ready.sound, trivial⟩
      · exact ready.fail _

theorem keeps_runSub (ready : Ready hosted first frames state runtime context) (a b : Object) :
    (runSub runtime a b).Keeps (discipline hosted first) settings frames state
      ((discipline hosted first).gives state) := by
  unfold runSub
  split
  · simp only [keeps_bind, keeps_pure]
    exact keeps_ofArithmetic ready fun _ => ⟨.refl ready.sound, trivial⟩
  · exact ready.fail _

theorem keeps_runMul (ready : Ready hosted first frames state runtime context) (a b : Object) :
    (runMul runtime a b).Keeps (discipline hosted first) settings frames state
      ((discipline hosted first).gives state) := by
  unfold runMul
  split
  · split
    · simp only [keeps_bind, keeps_pure]
      exact keeps_ofArithmetic ready fun _ => ⟨.refl ready.sound, trivial⟩
    · simp only [keeps_bind, keeps_pure]
      exact keeps_ofArithmetic ready fun _ => ⟨.refl ready.sound, trivial⟩
    · exact ready.fail _
  · exact ready.fail _

theorem keeps_runDiv (ready : Ready hosted first frames state runtime context) (a b : Object) :
    (runDiv runtime a b).Keeps (discipline hosted first) settings frames state
      ((discipline hosted first).gives state) := by
  unfold runDiv
  split
  · simp only [keeps_bind, keeps_pure]
    exact keeps_ofArithmetic ready fun _ => ⟨.refl ready.sound, trivial⟩
  · exact ready.fail _

theorem keeps_runStr (ready : Ready hosted first frames state runtime context) (value : Object) :
    (runStr value).Keeps (discipline hosted first) settings frames state
      ((discipline hosted first).gives state) := by
  simp only [runStr, keeps_bind, keeps_pure]
  exact keeps_displayed ready value fun _ => ⟨.refl ready.sound, trivial⟩

theorem keeps_runNum (ready : Ready hosted first frames state runtime context) (value : Object) :
    (runNum runtime value).Keeps (discipline hosted first) settings frames state
      ((discipline hosted first).gives state) := by
  unfold runNum
  split
  · split
    · exact ⟨.refl ready.sound, trivial⟩
    · exact ready.fail _
  · simp only []
    split
    · exact ready.fail _
    · exact ⟨.refl ready.sound, trivial⟩
    · exact ready.failure _
    · exact ready.fail _
  · exact ready.fail _

theorem keeps_runObj (ready : Ready hosted first frames state runtime context) {memory : Object}
    (valid : memory.Valid (state.extent hosted)) (yielded : Node) :
    (runObj runtime context memory yielded).Keeps (discipline hosted first) settings frames state
      ((discipline hosted first).gives state) := by
  simp only [runObj, keeps_bind]
  refine keeps_memoryOf ready valid fun name slot _ _ => ?_
  refine (keeps_reduceToBlock ready _).mono fun block after outcome => ?_
  obtain ⟨later, body, origin, eq⟩ := outcome
  subst eq
  have ready' := ready.later later
  simp only [keeps_evaluate]
  have inner : Context.Valid (after.extent hosted) { context with returnScope := true } :=
    ⟨ready'.context.scope, ready'.context.parameters⟩
  refine ⟨(ready'.inContext inner).visit (.inl rfl), fun space next given => ?_⟩
  split
  · simp only [keeps_bind, keeps_perform, keeps_pure]
    have safe : Change.Safe hosted next (.attach context.scope name _) := given.2
    exact ⟨discipline_change given.1.sound safe trivial,
      (later.trans given.1).trans (.change given.1.sound safe), trivial⟩
  · exact ⟨later.trans given.1, trivial⟩

theorem keeps_runWhen (ready : Ready hosted first frames state runtime context) (wanted : Bool)
    {condition : Object} (valid : condition.Valid (state.extent hosted)) (yielded : Node) :
    (runWhen runtime context wanted condition yielded).Keeps (discipline hosted first) settings
      frames state ((discipline hosted first).gives state) := by
  simp only [runWhen, keeps_bind, keeps_evaluate]
  refine ⟨ready.visit (.inr valid), fun x after given => ?_⟩
  have ready' := ready.later given.1
  refine keeps_truthOf ready' x fun holds => ?_
  split
  · simp only [keeps_bind, keeps_evaluate, keeps_pure]
    exact ⟨ready'.visitNode yielded, fun _ final last => ⟨given.1.trans last.1, trivial⟩⟩
  · exact ⟨given.1, trivial⟩

theorem keeps_runNot (ready : Ready hosted first frames state runtime context) {condition : Object}
    (valid : condition.Valid (state.extent hosted)) :
    (runNot runtime context condition).Keeps (discipline hosted first) settings frames state
      ((discipline hosted first).gives state) := by
  simp only [runNot, keeps_bind, keeps_evaluate, keeps_pure]
  refine ⟨ready.visit (.inr valid), fun x after given => ?_⟩
  exact keeps_truthOf (ready.later given.1) x fun _ => ⟨given.1, trivial⟩

theorem keeps_runExists (ready : Ready hosted first frames state runtime context) (name : Object) :
    (runExists runtime context name).Keeps (discipline hosted first) settings frames state
      ((discipline hosted first).gives state) := by
  unfold runExists
  split
  · exact ⟨.refl ready.sound, trivial⟩
  · exact ⟨.refl ready.sound, trivial⟩
  · exact ready.fail _

theorem keeps_runIs (ready : Ready hosted first frames state runtime context) {value : Object}
    (valid : value.Valid (state.extent hosted)) (yielded : Node) :
    (runIs runtime context value yielded).Keeps (discipline hosted first) settings frames state
      ((discipline hosted first).gives state) := by
  simp only [runIs, keeps_bind, keeps_evaluate, keeps_pure]
  refine ⟨ready.visit (.inr valid), fun x after given => ?_⟩
  exact ⟨(ready.later given.1).visitNode yielded, fun _ final last =>
    ⟨given.1.trans last.1, trivial⟩⟩

end TreeScript.Builtin

namespace TreeScript

namespace Invocation

variable {hosted : Bool} {first : Nat} {settings : Settings} {frames : List Frame}
variable {state : State} {invocation : Invocation}

theorem Valid.argument (valid : invocation.Valid hosted state) (i : Nat) :
    (invocation.arguments.getD i .absent).Valid (state.extent hosted) :=
  Builtin.getD_of_forall (by trivial) valid.arguments i

/-- Within its frame a builtin may evaluate. -/
theorem ready (sound : state.Sound hosted) (enough : first ≤ state.runtimes.size)
    (valid : invocation.Valid hosted state) :
    Ready hosted first (.builtin invocation :: frames) state invocation.runtime
      invocation.context :=
  ⟨sound, enough, valid.runtime_lt, valid.context, by rintro _ ⟨⟩; rfl⟩

theorem keeps_rule (sound : state.Sound hosted) (enough : first ≤ state.runtimes.size)
    (valid : invocation.Valid hosted state) :
    invocation.rule.Keeps (discipline hosted first) settings (.builtin invocation :: frames) state
      ((discipline hosted first).gives state) := by
  have ready : Ready hosted first (.builtin invocation :: frames) state _ _ :=
    ready sound enough valid
  have argument := valid.argument
  unfold Invocation.rule
  cases builtin : invocation.builtin with
  | define => exact Builtin.keeps_runDefine ready rfl rfl builtin (argument 0) _
  | defineNow => exact Builtin.keeps_runDefineNow ready rfl rfl builtin (argument 0) _
  | set => exact Builtin.keeps_runSet ready rfl rfl builtin (argument 0) _
  | print => exact Builtin.keeps_runPrint ready (argument 0)
  | param => exact ⟨.refl sound, Builtin.valid_parameterAt ready.context _⟩
  | yield => exact ⟨ready.visitNode _, fun _ _ given => given⟩
  | «return» => exact Builtin.keeps_runReturn ready (argument 0)
  | add => exact Builtin.keeps_runAdd ready _
  | sub => exact Builtin.keeps_runSub ready _ _
  | mul => exact Builtin.keeps_runMul ready _ _
  | div => exact Builtin.keeps_runDiv ready _ _
  | str => exact Builtin.keeps_runStr ready _
  | num => exact Builtin.keeps_runNum ready _
  | obj => exact Builtin.keeps_runObj ready (argument 0) _
  | «if» => exact Builtin.keeps_runWhen ready true (argument 0) _
  | «unless» => exact Builtin.keeps_runWhen ready false (argument 0) _
  | not => exact Builtin.keeps_runNot ready (argument 0)
  | «exists» => exact Builtin.keeps_runExists ready _
  | is => exact Builtin.keeps_runIs ready (argument 0) _

end Invocation

end TreeScript
