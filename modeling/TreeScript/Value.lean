import TreeScript.Node

/-!
# Values and what functions work with

A value is a number, a text, a boolean or a name. Evaluation works with a wider range: nothing at
all, values, scopes, trees that a host hands in, function entries, and plain data of the host. A
scope is known by its place in the heap and a runtime by its place in the state, so both can be
shared and changed.
-/

namespace TreeScript

abbrev ScopeId := Nat

abbrev RuntimeId := Nat

/-- A name in one scope. The name need not be bound there. -/
structure Slot where
  scope : ScopeId
  name : String
deriving Repr, DecidableEq

/-- A first-class value. Evaluating a value gives the value itself. -/
inductive Value where
  | number (value : Number)
  | text (value : String)
  | boolean (value : Bool)
  /-- A name, with the slot it had in the scope that evaluated it. -/
  | memory (name : String) (slot : Option Slot)

/-- The functions that every runtime provides. -/
inductive Builtin where
  | add | define | defineNow | div | exists | if | is | mul | not | num | obj | param | print
  | return | set | str | sub | unless | yield
deriving Repr, DecidableEq

/-- The kinds of fatal errors of a program. -/
inductive ErrorKind where
  | reference
  | type
  | memory
deriving Repr, DecidableEq

mutual

/-- What evaluation yields and functions receive. -/
inductive Object where
  | absent
  | value (value : Value)
  | scope (id : ScopeId)
  /-- A tree that stands for itself: a list, or a node from the host that is not yet evaluated. -/
  | tree (node : Node)
  | function (mark : Nat) (entry : Entry)
  /-- Plain data of the host; the mark tells objects apart. -/
  | plain (mark : Nat) (datum : Data)

/-- What a name in a scope's function table is bound to. -/
inductive Entry where
  /-- A builtin works on the runtime that it belongs to. -/
  | builtin (runtime : RuntimeId) (builtin : Builtin)
  /-- A procedure of the host under a name of its own. -/
  | host (name : String) (procedure : Procedure)
  /-- A body together with the scope that defined it. -/
  | custom (closure : ScopeId) (body : Object)
  /-- Something that a host stored and that cannot be called. -/
  | inert (datum : Data)

/-- What a host procedure does with its arguments and the context of its call. -/
inductive Procedure where
  | argumentCount
  | constant (result : Object)
  | argument (index : Nat)
  | currentScope
  | yieldTree
  /-- A text that describes the context of the call. -/
  | describeContext
  | crash (message : String)
  /-- A fatal error that is raised without being reported. -/
  | refuse (kind : ErrorKind) (message : String)

end

def Builtin.all : List Builtin :=
  [add, define, defineNow, div, .exists, .if, is, mul, not, num, obj, param, print, .return, set,
   str, sub, .unless, yield]

def Builtin.name : Builtin → String
  | add => "add"
  | define => "def"
  | defineNow => "defI"
  | div => "div"
  | .exists => "exists"
  | .if => "if"
  | is => "is"
  | mul => "mul"
  | not => "not"
  | num => "num"
  | obj => "obj"
  | param => "param"
  | print => "print"
  | .return => "return"
  | set => "set"
  | str => "str"
  | sub => "sub"
  | .unless => "unless"
  | yield => "yield"

def ErrorKind.name : ErrorKind → String
  | reference => "Reference"
  | type => "Type"
  | memory => "Memory"

namespace Value

def kindName : Value → String
  | number _ => "Number"
  | text _ => "String"
  | boolean _ => "Boolean"
  | memory .. => "Memory"

/-- Values of different kinds differ. Memories are equal when their names are. -/
def same : Value → Value → Bool
  | number m, number n => m.same n
  | text s, text t => s == t
  | boolean a, boolean b => a == b
  | memory s _, memory t _ => s == t
  | _, _ => false

/-- Zero and empty texts and names do not hold. -/
def holds : Value → Bool
  | number n => !n.isZero
  | text s => !s.isEmpty
  | boolean b => b
  | memory name _ => !name.isEmpty

def writable : Value → Bool
  | number n => n.writable
  | _ => true

/-- The value of a literal node. A name takes the slot. -/
def ofLiteral? (slot : Option Slot) : Node → Option Value
  | .number n _ => some (number n)
  | .text s _ => some (text s)
  | .boolean b _ => some (boolean b)
  | .memory name _ => some (memory name slot)
  | _ => none

/-- The literal node of a value. The slot of a name is dropped. -/
def literal : Value → Node
  | number n => .number n {}
  | text s => .text s {}
  | boolean b => .boolean b {}
  | memory name _ => .memory name {}

/-- A value read back from its literal differs in the slot at most. -/
theorem ofLiteral?_literal (slot : Option Slot) (value : Value) :
    ofLiteral? slot value.literal = some (match value with
      | memory name _ => memory name slot
      | other => other) := by
  cases value <;> rfl

end Value

mutual

/-- A tree of lists and missing trees is equal to data of lists and nulls. -/
def Node.sameData : Node → Data → Bool
  | .absent, .null => true
  | .list _ items, .list others => Node.sameDataAll items others
  | _, _ => false

def Node.sameDataAll : List Node → List Data → Bool
  | [], [] => true
  | item :: items, other :: others => item.sameData other && Node.sameDataAll items others
  | _, _ => false

end

def Entry.kindName : Entry → String
  | builtin .. | host .. => "NativeFunction"
  | custom .. => "CustomFunction"
  | inert datum => datum.kindName

namespace Object

def ofNode : Node → Object
  | .absent => absent
  | node => tree node

def kindName : Object → String
  | absent => "absent"
  | value v => v.kindName
  | scope _ => "Scope"
  | tree node => node.kindName
  | function _ entry => entry.kindName
  | plain _ datum => datum.kindName

/-- The name of an object's kind among the kinds of plain data. -/
def typeName : Object → String
  | absent => "NoneType"
  | object => object.kindName

def value? : Object → Option Value
  | value v => some v
  | _ => none

/-- The object is a node that can be evaluated; a list is none. -/
def isNode : Object → Bool
  | tree (.list ..) => false
  | tree .absent => false
  | tree _ => true
  | _ => false

/-- Equality of objects. Scopes and functions are equal to themselves only. -/
def same : Object → Object → Bool
  | absent, absent => true
  | value a, value b => a.same b
  | scope a, scope b => a == b
  | tree a, tree b => a.same b
  | function a _, function b _ => a == b
  | plain _ a, plain _ b => a.same b
  | tree a, plain _ b => a.sameData b
  | plain _ a, tree b => b.sameData a
  | absent, plain _ b => b.same .null
  | plain _ a, absent => a.same .null
  | _, _ => false

/-- The same object, not an equal one. Trees, functions and plain data are told apart by their
marks, but of some plain data there is only one. -/
def identical : Object → Object → Bool
  | absent, absent => true
  | scope a, scope b => a == b
  | tree a, tree b => a.mark? == b.mark?
  | function a _, function b _ => a == b
  | plain a x, plain b y => a == b || x.isShared y
  | _, _ => false

end Object

theorem Builtin.all_length : Builtin.all.length = 19 := rfl

theorem Builtin.mem_all (b : Builtin) : b ∈ Builtin.all := by
  cases b <;> simp [Builtin.all]

end TreeScript
