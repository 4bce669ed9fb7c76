import TreeScript.Evaluation.Rule

/-!
# The builtins

A builtin receives its evaluated arguments, the context of the call and the yield subtree, which is
not yet evaluated. Missing arguments are absent and further ones are ignored. Definitions and
namespaces are written to scopes, everything else gives a value.
-/

namespace TreeScript.Builtin

open Rule

variable (runtime : RuntimeId) (context : Context)

/-- Binds a name to a custom function of the scope of the call. -/
def writeSlot (slot : Slot) (body : Object) : Rule Unit :=
  perform (.write slot context.scope body)

/-- The slot of a memory whose name its scope does not bind. -/
def freshSlot (memory : Object) : Rule Slot := do
  let result ← evaluate runtime memory context
  let (name, slot) ← memoryOf runtime context result
  if ← inspect fun _ state => state.heap.hasLocal slot.scope name then
    fail runtime (.alreadyDefined name)
  else return slot

/-- Binds a name to the yield subtree, which is evaluated at each call. -/
def runDefine (memory : Object) (yielded : Node) : Rule Object := do
  let slot ← freshSlot runtime context memory
  writeSlot context slot (.ofNode yielded)
  return .absent

/-- Binds a name to the literal that the yield subtree is evaluated to now. -/
def runDefineNow (memory : Object) (yielded : Node) : Rule Object := do
  let slot ← freshSlot runtime context memory
  let value ← reduce runtime context (.ofNode yielded)
  writeSlot context slot (.value value)
  return .absent

/-- The name of a memory, which has to be bound in the scope of the call. -/
def boundName (memory : Object) : Rule String := do
  let (name, _) ← memoryOf runtime context memory
  if ← inspect fun _ state => state.heap.hasLocal context.scope name then return name
  else fail runtime (.notDefined name)

/-- Gives a new literal to a name that the scope of the call binds. -/
def runSet (memory : Object) (yielded : Node) : Rule Object := do
  let name ← boundName runtime context memory
  let value ← reduce runtime context (.ofNode yielded)
  writeSlot context ⟨context.scope, name⟩ (.value value)
  return .absent

def runPrint (value : Object) : Rule Object := do
  let result ← evaluate runtime value context
  let text ← displayed result
  perform (.print runtime text)
  return .absent

/-- What holds of all the objects and of nothing holds at each place. -/
theorem getD_of_forall {P : Object → Prop} {objects : List Object} (absent : P .absent)
    (h : ∀ x ∈ objects, P x) (i : Nat) : P (objects.getD i .absent) := by
  rw [List.getD_eq_getElem?_getD]
  cases found : objects[i]? with
  | none => exact absent
  | some x => exact h x (List.mem_of_getElem? found)

/-- One of the arguments of the function around, or nothing. -/
def parameterAt (index : Object) : Object :=
  match index with
  | .value (.number n) => match n.integer? with
    | some i => if i < 0 then .absent else context.parameters.getD i.toNat .absent
    | none => .absent
  | _ => .absent

theorem parameterAt_of_forall {P : Object → Prop} (absent : P .absent)
    (h : ∀ x ∈ context.parameters, P x) (index : Object) : P (parameterAt context index) := by
  unfold parameterAt
  split
  · split
    · split
      · exact absent
      · exact getD_of_forall absent h _
    · exact absent
  · exact absent

/-- Notes the value that the block around returns. Statements after it are still evaluated. -/
def runReturn (value : Object) : Rule Object := do
  perform (.setReturned context.scope value)
  return value

def numbersOf (objects : List Object) : List Number :=
  objects.filterMap fun
    | .value (.number n) => some n
    | _ => none

def textsOf (objects : List Object) : List String :=
  objects.filterMap fun
    | .value (.text s) => some s
    | _ => none

/-- The sum of numbers or the texts one after the other. All arguments must be of the kind of the
first. -/
def runAdd (arguments : List Object) : Rule Object :=
  match arguments with
  | [] => fail runtime .nothingToAdd
  | first :: rest =>
      match rest.find? fun object => object.kindName != first.kindName with
      | some other => fail runtime (.mixedSum other.kindName first.kindName)
      | none => match first with
        | .value (.number _) => do
            let sum ← ofArithmetic (Number.sum (numbersOf arguments))
            return .value (.number sum)
        | .value (.text _) => return .value (.text (String.join (textsOf arguments)))
        | other => fail runtime (.unsupportedSum other.kindName)

def runSub (a b : Object) : Rule Object :=
  match a, b with
  | .value (.number a), .value (.number b) => do
      let difference ← ofArithmetic (a.sub b)
      return .value (.number difference)
  | _, _ => fail runtime .subtractedNonNumber

/-- The product of two numbers, or a text repeated. -/
def runMul (a b : Object) : Rule Object :=
  match b with
  | .value (.number count) => match a with
    | .value (.number a) => do
        let product ← ofArithmetic (a.mul count)
        return .value (.number product)
    | .value (.text s) => do
        let text ← ofArithmetic (repeatText s count)
        return .value (.text text)
    | other => fail runtime (.unsupportedProduct other.kindName)
  | _ => fail runtime .multiplierNonNumber

def runDiv (a b : Object) : Rule Object :=
  match a, b with
  | .value (.number a), .value (.number b) => do
      let quotient ← ofArithmetic (a.div b)
      return .value (.number quotient)
  | _, _ => fail runtime .dividedNonNumber

def runStr (value : Object) : Rule Object := do
  let text ← displayed value
  return .value (.text text)

/-- The integer that a number is cut down to, or with which the text of a value begins. -/
def runNum (value : Object) : Rule Object :=
  match value with
  | .value (.number n) => match n.truncate? with
    | some i => return .value (.number (.int i))
    | none => fail runtime (.numberWithoutInteger n.display)
  | .value value => do
      let text := Layout.display (.value value)
      match Numeral.leadingInteger? text.toList with
      | none => fail runtime (.textWithoutInteger text)
      | some (.ok i) => return .value (.number (.int i))
      | some (.error (.tooManyDigits count)) => failure (.tooManyDigits count)
      | some (.error .malformed) => fail runtime (.textWithoutInteger text)
  | object => fail runtime (.noNumber object.kindName)

/-- Evaluates the block that the yield subtree is evaluated to, and makes its scope a namespace of
the scope of the call. -/
def runObj (memory : Object) (yielded : Node) : Rule Object := do
  let (name, _) ← memoryOf runtime context memory
  let block ← reduceToBlock runtime context (.ofNode yielded)
  let space ← evaluate runtime (.tree block) { context with returnScope := true }
  match space with
  | .scope space => do
      perform (.attach context.scope name space)
      return .absent
  | _ => return .absent

/-- Evaluates the yield subtree if the condition comes out as wanted, and tells whether it did. -/
def runWhen (wanted : Bool) (condition : Object) (yielded : Node) : Rule Object := do
  let result ← evaluate runtime condition context
  let holds ← truthOf runtime result
  if holds = wanted then do
    let _ ← evaluate runtime (.ofNode yielded) context
    return .value (.boolean true)
  else return .value (.boolean false)

def runNot (condition : Object) : Rule Object := do
  let result ← evaluate runtime condition context
  let holds ← truthOf runtime result
  return .value (.boolean !holds)

/-- Whether the scope of the call or one of its parents binds the name. -/
def runExists (name : Object) : Rule Object :=
  match name with
  | .value (.memory name _) | .value (.text name) =>
      inspect fun _ state =>
        .value (.boolean (state.heap.owner? context.scope name).isSome)
  | object => fail runtime (.expectedMemory object.kindName)

/-- Values are compared as values, and anything else is only the same as itself. -/
def sameObject : Object → Object → Bool
  | .value a, .value b => a.same b
  | a, b => a.identical b

/-- Whether the argument and the yield subtree come out the same. -/
def runIs (value : Object) (yielded : Node) : Rule Object := do
  let left ← evaluate runtime value context
  let right ← evaluate runtime (.ofNode yielded) context
  return .value (.boolean (sameObject left right))

def run (builtin : Builtin) (arguments : List Object) (yielded : Node) : Rule Object :=
  let first := arguments.getD 0 .absent
  let second := arguments.getD 1 .absent
  match builtin with
  | .define => runDefine runtime context first yielded
  | .defineNow => runDefineNow runtime context first yielded
  | .set => runSet runtime context first yielded
  | .print => runPrint runtime context first
  | .param => return parameterAt context first
  | .yield => evaluate runtime (.ofNode context.yielded) context
  | .return => runReturn context first
  | .add => runAdd runtime arguments
  | .sub => runSub runtime first second
  | .mul => runMul runtime first second
  | .div => runDiv runtime first second
  | .str => runStr first
  | .num => runNum runtime first
  | .obj => runObj runtime context first yielded
  | .if => runWhen runtime context true first yielded
  | .unless => runWhen runtime context false first yielded
  | .not => runNot runtime context first
  | .exists => runExists runtime context first
  | .is => runIs runtime context first yielded

end TreeScript.Builtin

namespace TreeScript

def Invocation.rule (invocation : Invocation) : Rule Object :=
  invocation.builtin.run invocation.runtime invocation.context invocation.arguments
    invocation.yielded

end TreeScript
