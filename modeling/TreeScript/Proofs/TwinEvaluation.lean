import TreeScript.Proofs.Soundness
import TreeScript.Proofs.Twins

/-!
# Evaluation under other names

The rule of every part but an import is the twin of the rule of the renamed part. So if no part that
may be visited is an import, an evaluation and the evaluation of the renamed part in an alike state
end alike: with the same result or the same error under other names, and in alike states.
-/

namespace TreeScript

open Rule

variable {r : Renaming} {runtime : RuntimeId} {context : Context}

/-! ### Calls and nodes -/

theorem twin_procedure (procedure : Procedure) (arguments : List Object) (yielded : Node) :
    Twin r (Renamed r) (procedure.rule context arguments yielded)
      ((procedure.rename r).rule (context.rename r) (arguments.map (·.rename r))
        (yielded.rename r)) := by
  cases procedure with
  | argumentCount =>
      simp only [Procedure.rename, Procedure.rule, List.length_map]
      exact .done rfl
  | constant result => exact .done rfl
  | argument index => exact .done (Builtin.getD_rename arguments index)
  | currentScope => exact .done rfl
  | yieldTree => exact .done (Object.ofNode_rename yielded)
  | describeContext =>
      simp only [Procedure.rename, Procedure.rule, Context.rename, List.length_map,
        Object.ofNode_rename, Object.kindName_rename]
      exact .done rfl
  | crash message => exact .halt (.failure (.crash message))
  | refuse kind message => exact .halt (.error ⟨.fromHost kind message, .absent, []⟩)

theorem traceProcedure_rename (name : String) (arguments : List Object) :
    traceProcedure name (arguments.map (·.rename r)) = traceProcedure name arguments := by
  simp [traceProcedure, Function.comp_def]

theorem twin_customArguments (parameters : List Node) :
    Twin r (fun xs ys => ys = xs.map (·.rename r)) (customArguments runtime context parameters)
      (customArguments runtime (context.rename r) (Node.renameAll r parameters)) := by
  unfold customArguments
  rw [Node.isEmpty_renameAll]
  split
  · exact .done rfl
  · exact twin_all parameters

theorem twin_callEntry (name : String) (parameters : List Node) (yielded : Node) (entry : Entry) :
    Twin r (Renamed r) (callEntry runtime context name parameters yielded entry)
      (callEntry runtime (context.rename r) name (Node.renameAll r parameters) (yielded.rename r)
        (entry.rename r)) := by
  cases entry with
  | builtin owner builtin =>
      refine (twin_all parameters).andThen fun xs => ?_
      rw [traceProcedure_rename]
      refine (twin_trace _).bind fun _ _ _ => ?_
      let invocation : Invocation := ⟨builtin, owner, context, xs, yielded⟩
      exact twin_inside (.builtin invocation) invocation.twin_rule
  | host label procedure =>
      refine (twin_all parameters).andThen fun xs => ?_
      rw [traceProcedure_rename]
      exact (twin_trace _).bind fun _ _ _ => twin_procedure procedure xs yielded
  | custom closure body =>
      refine (twin_customArguments parameters).andThen fun xs => ?_
      rw [Node.isEmpty_renameAll, traceCustom, traceCustom, List.length_map]
      refine (twin_trace _).bind fun _ _ _ => ?_
      exact twin_evaluate _ body { scope := closure, parameters := xs, yielded }
  | inert datum => exact .fail _ _ .absent

theorem twin_resolveAndCall (name : String) (parameters : List Node) (yielded : Node) :
    Twin r (Renamed r) (resolveAndCall runtime context name parameters yielded)
      (resolveAndCall runtime (context.rename r) name (Node.renameAll r parameters)
        (yielded.rename r)) := by
  refine .look fun settings a b alike => ?_
  simp only [Context.rename, alike.heap.resolve]
  cases a.heap.resolve context.scope name with
  | error cause => exact .fail _ _ .absent
  | ok entry => exact twin_callEntry name parameters yielded entry

/-- A block gets the next scope, which is the next one under other names as well. -/
theorem twin_evaluateBlock (body : List Node) :
    Twin r (Renamed r) (evaluateBlock runtime context body)
      (evaluateBlock runtime (context.rename r) (Node.renameAll r body)) := by
  refine .look fun settings a b alike => ?_
  have opened := twin_perform (r := r) (c := .openScope context.scope) trivial
  refine opened.bind fun _ _ _ => ?_
  rw [alike.heap.size_eq]
  exact twin_blockIn a.heap.scopes.size body

theorem twin_nodeRule (node : Node) (other : ∀ name origin, node ≠ .moduleImport name origin) :
    Twin r (Renamed r) (nodeRule runtime context node)
      (nodeRule runtime (context.rename r) (node.rename r)) := by
  cases node with
  | absent | list | number | text | boolean | memory => exact .done rfl
  | call name parameters yielded origin =>
      exact twin_inside (.call runtime (.call name parameters yielded origin))
        (twin_resolveAndCall name parameters yielded)
  | block body origin => exact twin_evaluateBlock body
  | program body origin => exact (twin_each _ _ body).bind fun _ _ _ => .done rfl
  | group body origin => exact twin_last .absent body
  | moduleImport name origin => exact absurd rfl (other name origin)

/-- The rule of a part but an import is the twin of the rule of the renamed part. -/
theorem twin_evaluateStep (object : Object)
    (other : ∀ name origin, object ≠ .tree (.moduleImport name origin)) :
    Twin r (Renamed r) (evaluateStep runtime object context)
      (evaluateStep runtime (object.rename r) (context.rename r)) := by
  have isNode := Object.isNode_rename (r := r) object
  cases object with
  | tree node =>
      simp only [Object.rename] at isNode
      simp only [Object.rename, evaluateStep, isNode]
      split
      · refine (twin_perform (c := .visit runtime node) trivial).bind fun _ _ _ => ?_
        exact twin_nodeRule node fun name origin eq => other name origin (congrArg Object.tree eq)
      · exact .done rfl
  | _ => exact .done rfl

/-! ### Twins end alike -/

/-- The second evaluation ends like the first one under other names. -/
inductive EndsAlike (r : Renaming) {α β : Type} (R : α → β → Prop) :
    Except Interrupt α × State → Except Interrupt β × State → Prop
  | ok {x : α} {y : β} {a b : State} : R x y → a.Alike r b → EndsAlike r R (.ok x, a) (.ok y, b)
  | error {reason : Interrupt} {a b : State} : a.Alike r b →
      EndsAlike r R (.error reason, a) (.error (reason.rename r), b)

namespace Rule.Twin

variable {α β : Type} {contract : Contract} {settings : Settings} {depth : Nat}
variable {frames : List Frame} {a b : State}

/-- Twins end alike in alike states if the parts do, provided the first keeps a contract that allows
safe changes alone. -/
theorem endsAlike {R : α → β → Prop} {rule : Rule α} {rule' : Rule β}
    (twin : Twin r R rule rule') (kept : contract.KeptAt settings depth)
    (safe : ∀ frames state c, contract.allows frames state (.change c) → c.Safe false state)
    (parts : ∀ runtime object context frames a b,
      contract.allows frames a (.visit runtime object context) → a.Alike r b →
        EndsAlike r (Renamed r) (TreeScript.evaluate depth runtime object context settings a)
          (TreeScript.evaluate depth runtime (object.rename r) (context.rename r) settings b))
    {post : α → State → Prop} (keeps : rule.Keeps contract settings frames a post)
    (alike : a.Alike r b) :
    EndsAlike r R (rule.run (TreeScript.evaluate depth) settings a)
      (rule'.run (TreeScript.evaluate depth) settings b) := by
  induction twin generalizing frames a b with
  | done same => exact .ok same alike
  | look _ ih => exact ih settings a b alike keeps alike
  | change plain _ ih => exact ih keeps.2 (alike.change plain (safe frames a _ keeps.1))
  | fail runtime cause node =>
      simp only [run, (alike.runtime runtime).error cause node]
      exact .error (alike.reportError runtime cause)
  | halt reason => exact .error alike
  | @part α β R runtime object context next next' _ ih =>
      have ended := parts runtime object context frames a b keeps.1 alike
      have given := (kept runtime object context frames a keeps.1).1
      simp only [run]
      generalize TreeScript.evaluate depth runtime object context settings a = outcome
        at ended given ⊢
      generalize TreeScript.evaluate depth runtime (object.rename r) (context.rename r) settings b =
        outcome' at ended ⊢
      cases ended with
      | @ok x y a' b' same alike' =>
          subst same
          exact ih x (keeps.2 x a' (given x a' rfl)) alike'
      | error alike' => exact .error alike'
  | @within α β γ δ R S frame body body' next next' _ _ body_ih ih =>
      have ended := body_ih keeps.2 (alike.enter frame)
      have given := (keeps.2.at_depth kept).1
      simp only [run]
      generalize body.run (TreeScript.evaluate depth) settings (frame.enter a) = outcome
        at ended given ⊢
      generalize body'.run (TreeScript.evaluate depth) settings ((frame.rename r).enter b) =
        outcome' at ended ⊢
      cases ended with
      | @ok x y a' b' same alike' =>
          exact ih x y same (given x a' rfl) (alike'.leave frame)
      | error alike' => exact .error (alike'.leave frame)

end Rule.Twin

/-- A contract under which changes are safe and no import is evaluated. -/
structure Contract.Portable (contract : Contract) (settings : Settings) : Prop where
  kept : contract.Kept settings
  safe : ∀ frames state c, contract.allows frames state (.change c) → c.Safe false state
  other : ∀ frames state runtime object context,
    contract.allows frames state (.visit runtime object context) →
      ∀ name origin, object ≠ .tree (.moduleImport name origin)

/-- Evaluations under other names end alike. -/
theorem evaluate_endsAlike {contract : Contract} {settings : Settings}
    (portable : contract.Portable settings) (depth : Nat) (runtime : RuntimeId) (object : Object)
    (context : Context) (frames : List Frame) (a b : State)
    (allowed : contract.allows frames a (.visit runtime object context)) (alike : a.Alike r b) :
    EndsAlike r (Renamed r) (evaluate depth runtime object context settings a)
      (evaluate depth runtime (object.rename r) (context.rename r) settings b) := by
  induction depth generalizing runtime object context frames a b with
  | zero => exact .error alike
  | succ depth ih =>
      have twin : Twin r (Renamed r) (evaluateStep runtime object context)
          (evaluateStep runtime (object.rename r) (context.rename r)) :=
        twin_evaluateStep object (portable.other frames a runtime object context allowed)
      exact twin.endsAlike (portable.kept.at_depth depth) portable.safe ih
        (portable.kept runtime object context frames a allowed) alike

end TreeScript
