import TreeScript.Evaluation.Action
import TreeScript.Evaluation.Resolution

/-!
# Rules of evaluation

A rule says what an object becomes in a context. It is a tree of what has to be done one after the
other: looking at the state, changing it, evaluating a part, or doing something within a frame. A
rule does not say how its parts are evaluated; whoever runs it does, see `TreeScript.evaluate`. So
whatever holds of each single step holds of every rule, and only the steps have to be looked at.

After the rules themselves come the ways of evaluating several parts, of entering a block, and of
evaluating until a literal or a block is reached, which the rules for the nodes share.
-/

namespace TreeScript

/-- How a runtime evaluates an object in a context. -/
abbrev Evaluator := RuntimeId → Object → Context → Action Object

/-- What has to be done to get a result. -/
inductive Rule : Type → Type 1 where
  | done {α : Type} (result : α) : Rule α
  | look {α β : Type} (view : Settings → State → β) (next : β → Rule α) : Rule α
  | change {α : Type} (change : Change) (next : Rule α) : Rule α
  /-- A fatal error, which the runtime reports. Without a node it is about the innermost call. -/
  | fail {α : Type} (runtime : RuntimeId) (cause : Cause) (node : Node := .absent) : Rule α
  /-- An end that nobody reports. -/
  | halt {α : Type} (reason : Interrupt) : Rule α
  | part {α : Type} (runtime : RuntimeId) (object : Object) (context : Context)
      (next : Object → Rule α) : Rule α
  | within {α β : Type} (frame : Frame) (body : Rule β) (next : β → Rule α) : Rule α

namespace Rule

variable {α β γ : Type}

protected def bind {α β : Type} : Rule α → (α → Rule β) → Rule β
  | done a, f => f a
  | look view next, f => look view fun b => (next b).bind f
  | change c next, f => change c (next.bind f)
  | fail runtime cause node, _ => fail runtime cause node
  | halt reason, _ => halt reason
  | part runtime object context next, f => part runtime object context fun x => (next x).bind f
  | within frame body next, f => within frame body fun b => (next b).bind f

instance : Monad Rule where
  pure := done
  bind := Rule.bind

def inspect (view : Settings → State → α) : Rule α := look view done

def perform (c : Change) : Rule Unit := change c (done ())

def evaluate (runtime : RuntimeId) (object : Object) (context : Context) : Rule Object :=
  part runtime object context done

def inside (frame : Frame) (body : Rule α) : Rule α := within frame body done

/-- A failure that is no error of the language. -/
def failure (reason : Failure) : Rule α := halt (.failure reason)

/-- Does what a rule says. A frame is left whether its body ends early or not. -/
def run (evaluator : Evaluator) {α : Type} : Rule α → Action α
  | done a => fun _ state => (.ok a, state)
  | look view next => fun settings state =>
      (next (view settings state)).run evaluator settings state
  | change c next => fun settings state => next.run evaluator settings (c.apply state)
  | fail runtime cause node => fun _ state =>
      (.error (.error ((state.runtime runtime).error cause node)),
        state.reportError runtime cause)
  | halt reason => fun _ state => (.error reason, state)
  | part runtime object context next => fun settings state =>
      match evaluator runtime object context settings state with
      | (.ok x, state) => (next x).run evaluator settings state
      | (.error reason, state) => (.error reason, state)
  | within frame body next => fun settings state =>
      match body.run evaluator settings (frame.enter state) with
      | (.ok b, state) => (next b).run evaluator settings (frame.leave state)
      | (.error reason, state) => (.error reason, frame.leave state)

theorem pure_eq (a : α) : (pure a : Rule α) = done a := rfl

theorem bind_eq (rule : Rule α) (f : α → Rule β) : rule >>= f = rule.bind f := rfl

theorem bind_done (rule : Rule α) : rule.bind done = rule := by
  induction rule with
  | done _ | fail _ _ _ | halt _ => rfl
  | look view next ih => simp only [Rule.bind, ih]
  | change c next ih => simp only [Rule.bind, ih]
  | part r o c next ih => simp only [Rule.bind, ih]
  | within f body next _ ih => simp only [Rule.bind, ih]

theorem bind_assoc (rule : Rule α) (f : α → Rule β) (g : β → Rule γ) :
    (rule.bind f).bind g = rule.bind fun a => (f a).bind g := by
  induction rule with
  | done _ | fail _ _ _ | halt _ => rfl
  | look view next ih => simp only [Rule.bind, ih]
  | change c next ih => simp only [Rule.bind, ih]
  | part r o c next ih => simp only [Rule.bind, ih]
  | within f body next _ ih => simp only [Rule.bind, ih]

instance : LawfulMonad Rule :=
  LawfulMonad.mk' Rule bind_done (fun _ _ => rfl) bind_assoc

/-- A part is left to the evaluator. -/
theorem run_evaluate (evaluator : Evaluator) (runtime : RuntimeId) (object : Object)
    (context : Context) (settings : Settings) (state : State) :
    (evaluate runtime object context).run evaluator settings state =
      evaluator runtime object context settings state := by
  simp only [evaluate, run]
  rcases evaluator runtime object context settings state with ⟨reason | x, after⟩ <;> rfl

/-- One rule after the other: the second one goes on where the first one ended. -/
theorem run_bind (evaluator : Evaluator) (rule : Rule α) (f : α → Rule β)
    (settings : Settings) (state : State) :
    (rule >>= f).run evaluator settings state = match rule.run evaluator settings state with
      | (.ok a, state) => (f a).run evaluator settings state
      | (.error reason, state) => (.error reason, state) := by
  rw [bind_eq]
  induction rule generalizing state with
  | done a => rfl
  | fail runtime cause node => rfl
  | halt reason => rfl
  | look view next ih => exact ih _ f state
  | change c next ih => exact ih f _
  | part runtime object context next ih =>
      simp only [Rule.bind, run]
      split
      · exact ih _ f _
      · rfl
  | within frame body next _ ih =>
      simp only [Rule.bind, run]
      split
      · exact ih _ f _
      · rfl

/-- If one rule and then another gives a result, then so does the first, and the second goes on from
there. -/
theorem run_bind_ok {evaluator : Evaluator} {rule : Rule α} {f : α → Rule β} {settings : Settings}
    {state after : State} {b : β} (h : (rule >>= f).run evaluator settings state = (.ok b, after)) :
    ∃ a middle, rule.run evaluator settings state = (.ok a, middle) ∧
      (f a).run evaluator settings middle = (.ok b, after) := by
  rw [run_bind] at h
  generalize rule.run evaluator settings state = outcome at h ⊢
  rcases outcome with ⟨reason | a, middle⟩
  · cases h
  · exact ⟨a, middle, rfl, h⟩

/-! ### Several parts, blocks and reductions -/

def all (runtime : RuntimeId) (context : Context) : List Node → Rule (List Object)
  | [] => return []
  | node :: rest => do
      let result ← evaluate runtime (.ofNode node) context
      let results ← all runtime context rest
      return result :: results

def each (runtime : RuntimeId) (context : Context) : List Node → Rule Unit
  | [] => return ()
  | node :: rest => do
      let _ ← evaluate runtime (.ofNode node) context
      each runtime context rest

/-- Evaluates expressions one after the other and gives the last result. -/
def last (runtime : RuntimeId) (context : Context) (result : Object) : List Node → Rule Object
  | [] => return result
  | node :: rest => do
      let result ← evaluate runtime (.ofNode node) context
      last runtime context result rest

/-- Evaluates the statements of a block in a scope, and gives the scope or what it returns. -/
def blockIn (runtime : RuntimeId) (context : Context) (scope : ScopeId) (body : List Node) :
    Rule Object := do
  each runtime { context with scope, returnScope := false } body
  if context.returnScope then return .scope scope
  else inspect fun _ state => (state.heap.get scope).returned

/-- Evaluates until there is a literal value, in at most `remaining` steps. -/
def reduceWithin (runtime : RuntimeId) (context : Context) (limit : Int) (remaining : Nat)
    (object : Object) : Rule Value :=
  match object with
  | .value value => return value
  | object =>
      if object.isNode then
        match remaining with
        | 0 => fail runtime (.literalLimit limit)
        | remaining + 1 => do
            let result ← evaluate runtime object context
            reduceWithin runtime context limit remaining result
      else fail runtime (.expectedLiteral object.kindName)

/-- The literal value that an object is evaluated to, within the step limit. -/
def reduce (runtime : RuntimeId) (context : Context) (object : Object) : Rule Value := do
  let limit ← inspect fun settings _ => settings.stepLimit
  reduceWithin runtime context limit limit.toNat object

/-- Evaluates calls until there is something else, in at most `remaining` steps. It has to be a
block. -/
def reduceToBlockWithin (runtime : RuntimeId) (context : Context) (limit : Int) (remaining : Nat)
    (object : Object) : Rule Node :=
  match object with
  | .tree (.call name parameters yielded origin) =>
      match remaining with
      | 0 => fail runtime (.blockLimit limit)
      | remaining + 1 => do
          let result ← evaluate runtime (.tree (.call name parameters yielded origin)) context
          reduceToBlockWithin runtime context limit remaining result
  | .tree (.block body origin) => return .block body origin
  | object => fail runtime (.expectedBlock object.kindName)

/-- The block that an object is evaluated to, within the step limit. -/
def reduceToBlock (runtime : RuntimeId) (context : Context) (object : Object) : Rule Node := do
  let limit ← inspect fun settings _ => settings.stepLimit
  reduceToBlockWithin runtime context limit limit.toNat object

def trace (line : String) : Rule Unit := do
  if ← inspect fun settings _ => settings.tracing then perform (.trace line)
  else return ()

def ofArithmetic (result : Except ArithmeticFault α) : Rule α :=
  match result with
  | .ok a => return a
  | .error fault => failure (.arithmetic fault)

/-- The name and the slot of a memory. Without a slot of its own it has one in the scope around;
whatever is no memory is an error. -/
def memoryOf (runtime : RuntimeId) (context : Context) : Object → Rule (String × Slot)
  | .value (.memory name slot) => return (name, slot.getD ⟨context.scope, name⟩)
  | object => fail runtime (.expectedMemory object.kindName)

def truthOf (runtime : RuntimeId) : Object → Rule Bool
  | .value value => return value.holds
  | object => fail runtime (.notBoolean object.kindName)

/-- The text that a program shows of an object; an integer with too many digits has none. -/
def displayed (object : Object) : Rule String :=
  if (object.value?.map Value.writable).getD true then return Layout.display object
  else failure .unwritable

end Rule

end TreeScript
