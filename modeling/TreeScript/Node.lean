import TreeScript.Data

/-!
# Program trees

A program is a tree of nodes: literals, calls with arguments and an optional yield subtree, bodies
of statements, and imports. A subtree may be missing, and a list may stand wherever a node may.
Where a node came from is recorded beside it and takes no part in equality. Nor does its mark, by
which two trees that are equal are told apart.
-/

namespace TreeScript

/-- Where a node stands in its source: line and column as the document gives them, and its tag. -/
structure Location where
  line : Data
  column : Data
  tag : String

/-- What is recorded beside a node: its location, if that is known, and its mark; see
`Node.mark`. -/
structure Origin where
  location : Option Location := none
  mark : Nat := 0

/-- A program tree or a part of one. -/
inductive Node where
  | absent
  /-- A list of trees, which has a mark as well. -/
  | list (mark : Nat) (items : List Node)
  | number (value : Number) (origin : Origin)
  | text (value : String) (origin : Origin)
  | boolean (value : Bool) (origin : Origin)
  | memory (name : String) (origin : Origin)
  /-- A call by name. The yield subtree is handed over unevaluated. -/
  | call (name : String) (parameters : List Node) (yielded : Node) (origin : Origin)
  /-- Statements in a scope of their own. Trees come from documents, and so no block has a scope
  before it is evaluated; only a host can hand one over with it, see `evaluateIn`. -/
  | block (body : List Node) (origin : Origin)
  /-- Statements in the scope around them. -/
  | program (body : List Node) (origin : Origin)
  /-- Expressions of which the last gives the result. -/
  | group (body : List Node) (origin : Origin)
  | moduleImport (name : String) (origin : Origin)

namespace Node

def kindName : Node → String
  | absent => "NoneType"
  | list .. => "list"
  | number .. => "NumberLiteral"
  | text .. => "StringLiteral"
  | boolean .. => "BooleanLiteral"
  | memory .. => "MemoryLiteral"
  | call .. => "FunctionCall"
  | block .. => "Block"
  | program .. => "Program"
  | group .. => "ParameterBlock"
  | moduleImport .. => "ModuleImport"

/-- What is recorded beside the node, if it is one. -/
def origin? : Node → Option Origin
  | absent => none
  | list .. => none
  | number _ o | text _ o | boolean _ o | memory _ o | call _ _ _ o | block _ o | program _ o
  | group _ o | moduleImport _ o => some o

def location? (node : Node) : Option Location := node.origin?.bind (·.location)

def mark? : Node → Option Nat
  | list mark _ => some mark
  | node => node.origin?.map (·.mark)

def withoutYield : Node → Node
  | call name parameters _ origin => call name parameters absent origin
  | node => node

def callName? : Node → Option String
  | call name .. => some name
  | _ => none

mutual

/-- Equality of trees, in which locations and marks take no part. -/
def same : Node → Node → Bool
  | absent, absent => true
  | list _ xs, list _ ys => sameAll xs ys
  | number m _, number n _ => m.same n
  | text s _, text t _ => s == t
  | boolean a _, boolean b _ => a == b
  | memory s _, memory t _ => s == t
  | call s ps y _, call t qs z _ => s == t && sameAll ps qs && same y z
  | block xs _, block ys _ => sameAll xs ys
  | program xs _, program ys _ => sameAll xs ys
  | group xs _, group ys _ => sameAll xs ys
  | moduleImport s _, moduleImport t _ => s == t
  | _, _ => false

def sameAll : List Node → List Node → Bool
  | [], [] => true
  | x :: xs, y :: ys => same x y && sameAll xs ys
  | _, _ => false

end

mutual

/-- The names of the modules that a tree imports, in the order of the tree. -/
def imports : Node → List String
  | list _ items => importsAll items
  | call _ parameters yielded _ => importsAll parameters ++ imports yielded
  | block body _ | program body _ | group body _ => importsAll body
  | moduleImport name _ => [name]
  | _ => []

def importsAll : List Node → List String
  | [] => []
  | node :: rest => imports node ++ importsAll rest

end

mutual

/-- Gives the nodes and lists of a tree the marks from `next` on, in the order of the tree, and
returns the first mark not given. -/
def mark (next : Nat) : Node → Node × Nat
  | absent => (absent, next)
  | list _ items =>
      let (items, after) := markAll (next + 1) items
      (list next items, after)
  | number n o => (number n { o with mark := next }, next + 1)
  | text s o => (text s { o with mark := next }, next + 1)
  | boolean b o => (boolean b { o with mark := next }, next + 1)
  | memory name o => (memory name { o with mark := next }, next + 1)
  | call name parameters yielded o =>
      let (parameters, after) := markAll (next + 1) parameters
      let (yielded, after) := mark after yielded
      (call name parameters yielded { o with mark := next }, after)
  | block body o =>
      let (body, after) := markAll (next + 1) body
      (block body { o with mark := next }, after)
  | program body o =>
      let (body, after) := markAll (next + 1) body
      (program body { o with mark := next }, after)
  | group body o =>
      let (body, after) := markAll (next + 1) body
      (group body { o with mark := next }, after)
  | moduleImport name o => (moduleImport name { o with mark := next }, next + 1)

/-- Gives the nodes and lists of the trees marks, from left to right. -/
def markAll (next : Nat) : List Node → List Node × Nat
  | [] => ([], next)
  | node :: rest =>
      let (node, after) := mark next node
      let (rest, after) := markAll after rest
      (node :: rest, after)

end

end Node

end TreeScript
