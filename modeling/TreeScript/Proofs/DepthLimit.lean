import TreeScript.Proofs.Answers

/-!
# The depth limit

An evaluation that is given up for nesting too deeply ends at once: no rule catches that end and
goes on. So a limit shows in this one end alone. Whatever comes out in another way within a limit
comes out the same within every higher limit, and it leaves the same state.
-/

namespace TreeScript

/-- Wherever the one action does not end for nesting too deeply, the other does the same. -/
def Action.ExtendedBy {α : Type} (action deeper : Action α) : Prop :=
  ∀ settings state, (action settings state).1 ≠ .error .tooDeep →
    deeper settings state = action settings state

def Evaluator.ExtendedBy (evaluator deeper : Evaluator) : Prop :=
  ∀ runtime object context,
    (evaluator runtime object context).ExtendedBy (deeper runtime object context)

namespace Evaluator

theorem ExtendedBy.refl (evaluator : Evaluator) : evaluator.ExtendedBy evaluator :=
  fun _ _ _ _ _ _ => rfl

theorem ExtendedBy.trans {shallow middle deep : Evaluator} (first : shallow.ExtendedBy middle)
    (second : middle.ExtendedBy deep) : shallow.ExtendedBy deep := by
  intro runtime object context settings state ends
  have same := first runtime object context settings state ends
  rw [← same] at ends ⊢
  exact second runtime object context settings state ends

/-- What evaluates the parts does not show in a rule otherwise than in its parts. -/
theorem ExtendedBy.run {evaluator deeper : Evaluator} (extended : evaluator.ExtendedBy deeper)
    {α : Type} (rule : Rule α) : (rule.run evaluator).ExtendedBy (rule.run deeper) := by
  intro settings state
  induction rule generalizing state with
  | done _ | fail _ _ _ | halt _ => exact fun _ => rfl
  | look view next ih => exact ih (view settings state) state
  | change c next ih => exact ih (c.apply state)
  | part runtime object context next ih =>
      have part := extended runtime object context settings state
      simp only [Rule.run]
      generalize evaluator runtime object context settings state = outcome at part ⊢
      obtain ⟨reason | x, after⟩ := outcome
      · intro ends
        rw [part (by simpa using ends)]
      · rw [part (by simp)]
        exact ih x after
  | within frame body next body_ih ih =>
      have inner := body_ih (frame.enter state)
      simp only [Rule.run]
      generalize body.run evaluator settings (frame.enter state) = outcome at inner ⊢
      obtain ⟨reason | b, after⟩ := outcome
      · intro ends
        rw [inner (by simpa using ends)]
      · rw [inner (by simp)]
        exact ih b (frame.leave after)

end Evaluator

theorem evaluate_extendedBy_succ (depth : Nat) :
    (evaluate depth).ExtendedBy (evaluate (depth + 1)) := by
  induction depth with
  | zero => exact fun _ _ _ _ _ ends => absurd rfl ends
  | succ depth ih =>
      exact fun runtime object context => ih.run (evaluateStep runtime object context)

/-- An evaluation within a limit is extended by that within a higher one. -/
theorem evaluate_extendedBy {shallow deep : Nat} (le : shallow ≤ deep) :
    (evaluate shallow).ExtendedBy (evaluate deep) := by
  induction le with
  | refl => exact .refl _
  | step _ ih => exact ih.trans (evaluate_extendedBy_succ _)

theorem evaluateIn_extendedBy {shallow deep : Nat} (le : shallow ≤ deep) (runtime : RuntimeId)
    (scope : ScopeId) (node : Node) (context : Context) :
    (evaluateIn shallow runtime scope node context).ExtendedBy
      (evaluateIn deep runtime scope node context) := by
  unfold evaluateIn
  cases node with
  | block body origin => exact (evaluate_extendedBy le).run _
  | _ => exact evaluate_extendedBy (Nat.succ_le_succ le) runtime _ context

/-! ### Runs -/

/-- The run has reported that its evaluation was nested too deeply. -/
def RunResult.RanTooDeep (result : RunResult) : Prop :=
  match result.outcome with
  | .error report => report.message = Interrupt.tooDeep.headline
  | .success _ => False

instance (result : RunResult) : Decidable result.RanTooDeep :=
  match outcome : result.outcome with
  | .error report => decidable_of_iff (report.message = Interrupt.tooDeep.headline) <| by
      simp [RunResult.RanTooDeep, outcome]
  | .success _ => .isFalse <| by simp [RunResult.RanTooDeep, outcome]

/-- The end for nesting too deeply is always reported, in its headline alone. -/
theorem Interrupt.report_tooDeep (room : Nat) (current : Node) :
    Interrupt.tooDeep.report room current = .ok ⟨headline .tooDeep, none, current.location?⟩ := by
  simp [report, shownCall?, Interrupt.node, trace, stackLines, kind?]

namespace Runner

variable {shallow deep : Nat} (settings : Settings) (runner : Runner) (state : State)

/-- A run whose evaluation nests too deeply reports that. -/
theorem runFrom_ranTooDeep {depth : Nat} {place : Option Place} {script : Script} {program : Node}
    (loaded : script.load settings.files.reader = .ok program)
    (ends : (runner.evaluateProgram depth place program settings
      (runner.prepared settings state)).1 = .error .tooDeep) :
    ∃ result, (runner.runFrom depth place script settings state).1 = .ok result ∧
      result.RanTooDeep := by
  rw [runFrom_apply, loaded]
  simp only
  generalize runner.evaluateProgram depth place program settings
    (runner.prepared settings state) = outcome at ends ⊢
  obtain ⟨ended, after⟩ := outcome
  obtain rfl : ended = .error .tooDeep := ends
  simp only [Interrupt.report_tooDeep]
  exact ⟨_, rfl, rfl⟩

theorem runFrom_deeper (le : shallow ≤ deep) (place : Option Place) (script : Script)
    (ends : ∀ result, (runner.runFrom shallow place script settings state).1 = .ok result →
      ¬ result.RanTooDeep) :
    runner.runFrom deep place script settings state =
      runner.runFrom shallow place script settings state := by
  cases loaded : script.load settings.files.reader with
  | error fault => simp only [runFrom_apply, loaded]
  | ok program =>
      have extended : (runner.evaluateProgram shallow place program).ExtendedBy
          (runner.evaluateProgram deep place program) :=
        (evaluate_extendedBy le).run (runner.programRule place program)
      have same := extended settings (runner.prepared settings state) fun tooDeep => by
        obtain ⟨result, found, ran⟩ := runner.runFrom_ranTooDeep settings state loaded tooDeep
        exact ends result found ran
      simp only [runFrom_apply, loaded, same]

theorem runFile_deeper (le : shallow ≤ deep) (path : Path)
    (ends : ∀ after result,
      (runner.runFile shallow path settings state).1 = .ok (after, .ok result) →
        ¬ result.RanTooDeep) :
    runner.runFile deep path settings state = runner.runFile shallow path settings state := by
  unfold runFile at ends ⊢
  simp only [Action.settings, Action.bind_apply] at ends ⊢
  cases decoded : Document.atPath settings.files path with
  | error fault => rfl
  | ok document =>
      simp only [decoded, Action.bind_apply, Action.attempt, Action.pure_apply] at ends ⊢
      rw [runFrom_deeper settings _ state le]
      exact fun result found => ends _ result (by rw [found])

/-- A limit cannot be told from a higher one as long as it is not reached. Whatever is evaluated or
run within the lower limit, and does not end for nesting too deeply, gives the same result or error
within the higher one and leaves the same state, with all that was written and printed. -/
theorem deeper_unobservable (le : shallow ≤ deep) (settings : Settings) (state : State) :
    (∀ runtime object context,
      (evaluate shallow runtime object context settings state).1 ≠ .error .tooDeep →
      evaluate deep runtime object context settings state =
        evaluate shallow runtime object context settings state) ∧
    (∀ runtime scope node context,
      (evaluateIn shallow runtime scope node context settings state).1 ≠ .error .tooDeep →
      evaluateIn deep runtime scope node context settings state =
        evaluateIn shallow runtime scope node context settings state) ∧
    (∀ runtime object context,
      (reduceTo shallow runtime object context settings state).1 ≠ .error .tooDeep →
      reduceTo deep runtime object context settings state =
        reduceTo shallow runtime object context settings state) ∧
    (∀ (runner : Runner) (script : Script),
      (∀ result, (runner.run shallow script settings state).1 = .ok result →
        ¬ result.RanTooDeep) →
      runner.run deep script settings state = runner.run shallow script settings state) ∧
    (∀ (runner : Runner) (path : Path),
      (∀ after result, (runner.runFile shallow path settings state).1 = .ok (after, .ok result) →
        ¬ result.RanTooDeep) →
      runner.runFile deep path settings state = runner.runFile shallow path settings state) := by
  refine ⟨?_, ?_, ?_, ?_, ?_⟩
  · exact fun runtime object context =>
      evaluate_extendedBy le runtime object context settings state
  · exact fun runtime scope node context =>
      evaluateIn_extendedBy le runtime scope node context settings state
  · exact fun runtime object context =>
      (evaluate_extendedBy (Nat.succ_le_succ le)).run (Rule.reduce runtime context object)
        settings state
  · exact fun runner script => runner.runFrom_deeper settings state le none script
  · exact fun runner path => runner.runFile_deeper settings state le path

/-- A call of a function that is not known is reported alike within two limits, and the first of
them was not reached. -/
theorem unknownCall_deeper :
    let script : Script := .data (.unknownCall (.integerLiteral 1))
    8 ≤ 400 ∧ Runner.main.run 400 script (.quiet .empty) State.fresh =
      Runner.main.run 8 script (.quiet .empty) State.fresh := by
  intro script
  have le : 8 ≤ 400 := by decide
  obtain ⟨-, -, -, runs, -⟩ := deeper_unobservable le (.quiet .empty) State.fresh
  refine ⟨le, runs Runner.main script fun result found tooDeep => ?_⟩
  have other : ((Runner.main.run 8 script (.quiet .empty)
      State.fresh).1.toOption.any fun result => decide result.RanTooDeep) = false := by
    decide +kernel
  simp [found, Except.toOption, tooDeep] at other

end Runner

end TreeScript
