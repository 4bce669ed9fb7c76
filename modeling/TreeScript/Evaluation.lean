import TreeScript.Evaluation.Builtins
import TreeScript.Evaluation.Import

/-!
# Evaluation

Every kind of node has one rule, which is told how the parts of the node are evaluated. An
evaluation with a depth may nest that deep: at depth zero nothing can be evaluated any more, and at
each further depth the rules use the evaluation of the depth before.
-/

namespace TreeScript

open Rule

def Procedure.rule (context : Context) (arguments : List Object) (yielded : Node) :
    Procedure → Rule Object
  | .argumentCount => return .value (.number (.int arguments.length))
  | .constant result => return result
  | .argument index => return arguments.getD index .absent
  | .currentScope => return .scope context.scope
  | .yieldTree => return .ofNode yielded
  | .describeContext =>
      let count := Numeral.integerText context.parameters.length
      let kind := (Object.ofNode context.yielded).kindName
      let flag := if context.returnScope then "True" else "False"
      return .value (.text (count ++ " " ++ kind ++ " " ++ flag))
  | .crash message => failure (.crash message)
  | .refuse kind message => halt (.error ⟨.fromHost kind message, .absent, []⟩)

section

variable (runtime : RuntimeId)

def traceProcedure (name : String) (arguments : List Object) : Rule Unit :=
  let kinds := Data.list (arguments.map fun object => .text object.kindName)
  trace ("native call " ++ name ++ " argc " ++ Numeral.integerText arguments.length ++
    " types " ++ kinds.written)

def traceCustom (name : String) (arguments : List Object) (forwarded : Bool) : Rule Unit :=
  let flag := if forwarded then "True" else "False"
  trace ("custom call " ++ name ++ " argc " ++ Numeral.integerText arguments.length ++
    " forwarded " ++ flag)

/-- The arguments for a custom function. A call without arguments forwards those of the function
around. -/
def customArguments (context : Context) (parameters : List Node) : Rule (List Object) :=
  if parameters.isEmpty then return context.parameters else all runtime context parameters

def callEntry (context : Context) (name : String) (parameters : List Node) (yielded : Node) :
    Entry → Rule Object
  | .builtin owner builtin => do
      let arguments ← all runtime context parameters
      traceProcedure name arguments
      let invocation : Invocation := ⟨builtin, owner, context, arguments, yielded⟩
      inside (.builtin invocation) invocation.rule
  | .host _ procedure => do
      let arguments ← all runtime context parameters
      traceProcedure name arguments
      procedure.rule context arguments yielded
  | .custom closure body => do
      let arguments ← customArguments runtime context parameters
      traceCustom name arguments parameters.isEmpty
      evaluate runtime body { scope := closure, parameters := arguments, yielded }
  | .inert _ => fail runtime (.notCallable name)

def resolveAndCall (context : Context) (name : String) (parameters : List Node) (yielded : Node) :
    Rule Object := do
  let found ← inspect fun _ state => state.heap.resolve context.scope name
  match found with
  | .error cause => fail runtime cause
  | .ok entry => callEntry runtime context name parameters yielded entry

/-- A block of a document has no scope yet, and so it opens one each time it is evaluated. -/
def evaluateBlock (context : Context) (body : List Node) : Rule Object := do
  let scope ← inspect fun _ state => state.heap.scopes.size
  perform (.openScope context.scope)
  blockIn runtime context scope body

/-- The rule for each kind of node. A call is active until it ends. -/
def nodeRule (context : Context) (node : Node) : Rule Object :=
  match node with
  | .absent | .list .. => return .ofNode node
  | .number n _ => return .value (.number n)
  | .text s _ => return .value (.text s)
  | .boolean b _ => return .value (.boolean b)
  | .memory name _ => return .value (.memory name (some ⟨context.scope, name⟩))
  | .call name parameters yielded _ =>
      inside (.call runtime node) (resolveAndCall runtime context name parameters yielded)
  | .block body _ => evaluateBlock runtime context body
  | .program body _ => do
      each runtime context body
      return .absent
  | .group body _ => last runtime context .absent body
  | .moduleImport name _ => importModule runtime node name

def evaluateNode (context : Context) (node : Node) : Rule Object := do
  perform (.visit runtime node)
  nodeRule runtime context node

/-- One level of evaluation. Everything but a node stands for itself. -/
def evaluateStep (object : Object) (context : Context) : Rule Object :=
  match object with
  | .tree node => if object.isNode then evaluateNode runtime context node else return object
  | object => return object

end

def evaluate : Nat → Evaluator
  | 0 => fun _ _ _ => Action.interrupt .tooDeep
  | depth + 1 => fun runtime object context =>
      (evaluateStep runtime object context).run (evaluate depth)

theorem evaluate_value (depth : Nat) (runtime : RuntimeId) (value : Value) (context : Context) :
    evaluate (depth + 1) runtime (.value value) context = pure (.value value) := rfl

/-- How deep the evaluation of a program nests before it is given up. -/
def defaultDepth : Nat := 400

def rootContext (runtime : RuntimeId) : Action Context :=
  Action.inspect fun state => { scope := (state.runtime runtime).root }

/-- Evaluates a node for a host that brings a scope for the block, which then opens no new one. -/
def evaluateIn (depth : Nat) (runtime : RuntimeId) (scope : ScopeId) (node : Node)
    (context : Context) : Action Object :=
  match node with
  | .block body _ =>
      Rule.run (evaluate depth) do
        perform (.visit runtime node)
        blockIn runtime context scope body
  | node => evaluate (depth + 1) runtime (.ofNode node) context

def reduceTo (depth : Nat) (runtime : RuntimeId) (object : Object) (context : Context) :
    Action Value :=
  (reduce runtime context object).run (evaluate (depth + 1))

/-- The literal that a node is evaluated to, in which a block brings a scope of its own. -/
def reduceIn (depth : Nat) (runtime : RuntimeId) (scope : ScopeId) (node : Node)
    (context : Context) : Action Value := do
  let limit := (← Action.settings).stepLimit
  match node, limit.toNat with
  | .block .., remaining + 1 => do
      let result ← evaluateIn depth runtime scope node context
      (reduceWithin runtime context limit remaining result).run (evaluate (depth + 1))
  | _, _ => reduceTo depth runtime (.ofNode node) context

end TreeScript
