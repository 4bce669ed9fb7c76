import TreeScript.Data.Loop
import TreeScript.Node
import TreeScript.Text.Blank

/-!
# Reading a tree from data

A dictionary with a textual `type` denotes a node of that kind, a list denotes a list of trees, and
null denotes a missing tree. Nothing else denotes a tree. The parts of a dictionary are read in a
fixed order, and the first one that cannot be read decides the fault.

A list or a dictionary that holds itself can be shown, but as a tree it would never end. So the
parts of loops are read with the loops around them at hand.
-/

namespace TreeScript

/-- Why data denotes no tree. -/
inductive Node.Fault where
  | invalidNumber (raw : Data)
  | invalidBoolean (raw : Data)
  | bodyNotList (tag : Data)
  | unexpected (datum : Data)
  | notIterable (kind : String)
  | missing (key : String)
  | unnamedImport
  | untagged (datum : Data)
  | unknownTag (tag : Data)
  | empty
  | unwritable
  | endless

namespace Node

def Fault.message : Fault → String
  | invalidNumber raw => "Invalid number literal: " ++ raw.written
  | invalidBoolean raw => "Invalid boolean literal: " ++ raw.written
  | bodyNotList tag => tag.display ++ " body must be a list"
  | unexpected datum => "Unexpected AST element: " ++ datum.written
  | notIterable kind => "'" ++ kind ++ "' object is not iterable"
  | missing key => Data.quotedText key
  | unnamedImport => "Module import requires a module name."
  | untagged datum => "AST node without a type: " ++ datum.written
  | unknownTag tag => "Unknown AST node type: " ++ tag.written
  | empty => "AST document is empty."
  | unwritable => Numeral.unwritableMessage
  | endless => "maximum recursion depth exceeded"

/-- The data that the wording of a fault shows. -/
def Fault.shown : Fault → Data
  | invalidNumber datum | invalidBoolean datum | bodyNotList datum | unexpected datum
  | untagged datum | unknownTag datum => datum
  | _ => .null

/-- A fault whose wording would show an integer of too many digits becomes a fault about that. -/
def refuse {α : Type} (fault : Fault) : Except Fault α :=
  .error (if fault.shown.writable then fault else .unwritable)

def displayText (datum : Data) : Except Fault String :=
  if datum.writable then .ok datum.display else .error .unwritable

/-- The value of a number literal: a number, or the text of one. A text with neither a point nor
an exponent mark is the text of an integer. -/
def readNumber (raw : Data) : Except Fault Number :=
  match raw with
  | .int i => .ok (.int i)
  | .real x => .ok (.real x)
  | .text s =>
      let chars := Text.trim s.toList
      if chars.contains '.' || chars.contains 'e' || chars.contains 'E' then
        ((Numeral.readReal? chars).map Number.real).elim (refuse (.invalidNumber raw)) .ok
      else match Numeral.readInteger chars with
        | .ok i => .ok (.int i)
        | .error _ => refuse (.invalidNumber raw)
  | _ => refuse (.invalidNumber raw)

/-- The value of a boolean literal: a boolean, or one of the words for one. -/
def readBoolean (raw : Data) : Except Fault Bool :=
  match raw with
  | .bool b => .ok b
  | .text "true" => .ok true
  | .text "false" => .ok false
  | _ => refuse (.invalidBoolean raw)

/-- What stands under a key: the datum, and the tree it denotes. -/
structure Part where
  datum : Data
  tree : Except Fault Node

def Part.none : Part := ⟨.null, .ok .absent⟩

/-- The trees of a part that is a list. -/
def Part.trees (part : Part) : Except Fault (List Node) := do
  match ← part.tree with
  | list _ items => return items
  | _ => return []

/-- A datum that stands where a tree should and is neither a list nor a dictionary. -/
def readScalar : Data → Except Fault Node
  | .null => .ok absent
  | datum => refuse (.unexpected datum)

/-- The keys that say something about a node. What stands under any other key is left alone. -/
def partKeys : List String :=
  ["type", "value", "name", "parameters", "yieldFunction", "body", "line", "col"]

def isPartKey (key : Data) : Bool := partKeys.any fun name => key.sameKey (.text name)

/-- The arguments of a call. Whatever does not hold means none. A text gives its characters and a
dictionary its keys, of which only null denotes a tree. -/
def readParameters (part : Part) : Except Fault (List Node) :=
  if !part.datum.holds then .ok []
  else match part.datum.bare with
    | .list _ => part.trees
    | .text s => (s.toList.map fun c => Data.text c.toString).mapM readScalar
    | .dict entries => (entries.map (·.1)).mapM readScalar
    | datum => .error (.notIterable datum.kindName)

/-- The statements of a body. Whatever does not hold means none. -/
def readBody (tag : Data) (part : Part) : Except Fault (List Node) :=
  if !part.datum.holds then .ok []
  else match part.datum.bare with
    | .list _ => part.trees
    | _ => refuse (.bodyNotList tag)

/-- What is recorded beside a node. Its location is given when both its line and its column are. -/
def readOrigin (tag : String) (line column : Data) : Origin :=
  match line, column with
  | .null, _ => {}
  | _, .null => {}
  | _, _ => { location := some ⟨line, column, tag⟩ }

/-- The node denoted by a dictionary, from the parts under its keys. -/
def assemble (whole : Data) (part? : String → Option Part) : Except Fault Node :=
  let part (key : String) : Part := (part? key).getD .none
  let origin (tag : String) : Origin :=
    readOrigin tag (part "line").datum (part "col").datum
  match (part "type").datum with
  | .null => refuse (.untagged whole)
  | .text "NumberLiteral" => do
      return number (← readNumber (part "value").datum) (origin "NumberLiteral")
  | .text "StringLiteral" => do
      return text (← displayText ((part? "value").elim (.text "") (·.datum)))
        (origin "StringLiteral")
  | .text "BooleanLiteral" => do
      return boolean (← readBoolean (part "value").datum) (origin "BooleanLiteral")
  | .text "MemoryLiteral" => do
      let value ← (part? "value").elim (.error (.missing "value")) .ok
      return memory (← displayText value.datum) (origin "MemoryLiteral")
  | .text "FunctionCall" => do
      let name ← (part? "name").elim (.error (.missing "name")) .ok
      let name ← displayText name.datum
      let parameters ← readParameters (part "parameters")
      let yielded ← (part "yieldFunction").tree
      return call name parameters yielded (origin "FunctionCall")
  | .text "Block" => do
      return block (← readBody (.text "Block") (part "body")) (origin "Block")
  | .text "Program" => do
      return program (← readBody (.text "Program") (part "body")) (origin "Program")
  | .text "ParameterBlock" => do
      return group (← readBody (.text "ParameterBlock") (part "body")) (origin "ParameterBlock")
  | .text "ModuleImport" => importNode "ModuleImport" origin
  | .text "NeedOperator" => importNode "NeedOperator" origin
  | tag => refuse (.unknownTag tag)
where
  /-- An import, which has its name under `name` or else under `value`. -/
  importNode (tag : String) (origin : String → Origin) : Except Fault Node := do
    let name := ((part? "name").or (part? "value")).getD .none
    if name.datum.holds then return moduleImport (← displayText name.datum) (origin tag)
    .error .unnamedImport

def findPart? (parts : List (Data × Part)) (key : String) : Option Part :=
  (parts.find? fun part => part.1.sameKey (.text key)).map (·.2)

mutual

def readPart (outer : List (Nat × Data)) (whole : Data) : Data → Except Fault Node
  | .loop name collection => readPart ((name, whole) :: outer) whole collection
  | .again .. => .error .endless
  | .list items => (readAll outer items).map (list 0)
  | .dict entries => assemble whole (findPart? (readParts outer entries))
  | datum => readScalar datum

def readAll (outer : List (Nat × Data)) : List Data → Except Fault (List Node)
  | [] => .ok []
  | item :: rest => do
      let node ← readPart outer (item.standalone outer) item
      return node :: (← readAll outer rest)

def readParts (outer : List (Nat × Data)) : List (Data × Data) → List (Data × Part)
  | [] => []
  | (key, datum) :: rest =>
      if isPartKey key then
        let whole := datum.standalone outer
        (key, ⟨whole, readPart outer whole datum⟩) :: readParts outer rest
      else readParts outer rest

end

def read (datum : Data) : Except Fault Node := readPart [] datum datum

/-- The program that a whole document denotes. A list is the statements of a program; a document
without a node is refused. -/
def readProgram (document : Data) : Except Fault Node := do
  match ← read document with
  | list _ items => return program items {}
  | absent => .error .empty
  | node => return node

end Node

end TreeScript
