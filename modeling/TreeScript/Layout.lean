import TreeScript.Heap

/-!
# Source-like text

Every object has a text that looks like source. Statements stand on lines of their own, indented by
the level at which they stand; the level rises by one inside a block. The text of a scope lists its
names. A text in quotes escapes the backslash, the double quote and the line feed.

An object has no text if that would show an integer with too many digits, or if the object nests too
deeply. To lay out a part takes a few calls inside each other, more in a block than in a yield, and
there is room for so many of them.
-/

namespace TreeScript.Layout

/-- How a character of a quoted text is written. -/
def escapeChar : Char → List Char
  | '\\' => ['\\', '\\']
  | '"' => ['\\', '"']
  | '\n' => ['\\', 'n']
  | c => [c]

def textLiteral (s : String) : String :=
  String.ofList ('"' :: (s.toList.flatMap escapeChar ++ ['"']))

def booleanText (b : Bool) : String := if b then "true" else "false"

def memoryText (name : String) : String := "<" ++ name ++ ">"

def absentText : String := "[null]"

def indentation (width level : Nat) : String := String.ofList (List.replicate (width * level) ' ')

def statements (width level : Nat) (texts : List String) : String :=
  "\n".intercalate (texts.map (indentation width level ++ ·))

/-- A block around the text of its statements; a block without statements is a pair of braces. -/
def block (width level : Nat) (texts : List String) : String :=
  if texts.isEmpty then "\x7b\x7d"
  else "\x7b\n" ++ statements width (level + 1) texts ++ "\n" ++ indentation width level ++ "\x7d"

def parenthesized (texts : List String) : String := "(" ++ ", ".intercalate texts ++ ")"

mutual

/-- The text of a tree that stands at a level. -/
def nodeText (width level : Nat) : Node → String
  | .absent => absentText
  | .list _ items => statements width level (nodeTexts width level items)
  | .number n _ => n.display
  | .text s _ => textLiteral s
  | .boolean b _ => booleanText b
  | .memory name _ => memoryText name
  | .call name parameters yielded _ =>
      let call := name ++ parenthesized (nodeTexts width level parameters)
      match yielded with
      | .absent => call
      | yielded => call ++ ": " ++ nodeText width level yielded
  | .block body _ => block width level (nodeTexts width (level + 1) body)
  | .program body _ => statements width level (nodeTexts width level body)
  | .group body _ => parenthesized (nodeTexts width level body)
  | .moduleImport name _ => "need " ++ name

def nodeTexts (width level : Nat) : List Node → List String
  | [] => []
  | node :: rest => nodeText width level node :: nodeTexts width level rest

end

theorem nodeText_call (width level : Nat) (name : String) (parameters : List Node) (origin : Origin)
    {yielded : Node} (some : yielded ≠ .absent) :
    nodeText width level (.call name parameters yielded origin) =
      name ++ parenthesized (nodeTexts width level parameters) ++ ": " ++
        nodeText width level yielded := by
  cases yielded with
  | absent => exact absurd rfl some
  | _ => simp only [nodeText]

def valueText : Value → String
  | .number n => n.display
  | .text s => textLiteral s
  | .boolean b => booleanText b
  | .memory name _ => memoryText name

mutual

/-- The text of plain data: a list is laid out as statements, all else is in written form. -/
def dataText (width level : Nat) : Data → String
  | .null => absentText
  | .list items => statements width level (dataTexts width level items)
  | datum => datum.written

def dataTexts (width level : Nat) : List Data → List String
  | [] => []
  | item :: rest => dataText width level item :: dataTexts width level rest

end

/-- The text of a scope: its functions and its child scopes by name. -/
def scopeText (scope : Scope) : String :=
  let names := scope.functions.names ++ scope.children.names.map (· ++ ".*")
  if names.isEmpty then "[scope]" else "[scope " ++ ", ".intercalate names ++ "]"

/-- A scope told by its names; the parent is told by a reference to it. -/
def scopeSummary (scope : Scope) (reference : ScopeId → String) : String :=
  let parent := match scope.parent with
    | none => ""
    | some parent => ", parent=#" ++ reference parent
  "<Scope functions=[" ++ ", ".intercalate scope.functions.names ++ "] children=[" ++
    ", ".intercalate scope.children.names ++ "]" ++ parent ++ ">"

/-- A slot told by its name and a reference to its scope. -/
def slotSummary (slot : Slot) (reference : ScopeId → String) : String :=
  "<Slot " ++ Data.quotedText slot.name ++ " in #" ++ reference slot.scope ++ ">"

def entrySummary : Entry → String
  | .builtin _ b => "<NativeFunction " ++ b.name ++ ">"
  | .host name _ => "<NativeFunction " ++ name ++ ">"
  | .custom _ body => "<CustomFunction body=" ++ body.kindName ++ ">"
  | .inert datum => datum.written

mutual

def objectText (heap : Heap) (width level : Nat) : Object → String
  | .absent => absentText
  | .value v => valueText v
  | .scope id => scopeText (heap.get id)
  | .tree node => nodeText width level node
  | .function _ entry => entryText heap width level entry
  | .plain _ datum => dataText width level datum

def entryText (heap : Heap) (width level : Nat) : Entry → String
  | .builtin _ b => "[native " ++ b.name ++ "]"
  | .host name _ => "[native " ++ name ++ "]"
  | .custom _ body => "[function " ++ objectText heap width level body ++ "]"
  | .inert datum => dataText width level datum

end

/-! ### What stands in the way -/

/-- Why an object is not laid out. -/
inductive Obstacle where
  /-- An integer has too many digits. -/
  | unwritable
  /-- The object nests too deeply. -/
  | tooDeep
deriving Repr, DecidableEq

/-- What stands in the way inside of some calls, for which there has to be room. -/
def inside (calls room : Nat) (obstacle? : Nat → Option Obstacle) : Option Obstacle :=
  if room < calls then some .tooDeep else obstacle? (room - calls)

theorem inside_eq_none_iff {calls room : Nat} {obstacle? : Nat → Option Obstacle} :
    inside calls room obstacle? = none ↔ calls ≤ room ∧ obstacle? (room - calls) = none := by
  unfold inside
  split
  · simp
    omega
  · simp_all

def digitObstacle? (writable : Bool) : Option Obstacle :=
  if writable then none else some .unwritable

mutual

/-- The first obstacle to the text of a tree. -/
def nodeObstacle? (room : Nat) : Node → Option Obstacle
  | .list _ items => inside 3 room fun room => nodesObstacle? room items
  | .number n _ => inside 4 room fun _ => digitObstacle? n.writable
  | .call _ parameters yielded _ =>
      (inside 3 room fun room => nodesObstacle? room parameters).or
        (match yielded with
          | .absent => none
          | yielded => inside 2 room fun room => nodeObstacle? room yielded)
  | .block [] _ => inside 2 room fun _ => none
  | .block body _ | .program body _ => inside 4 room fun room => nodesObstacle? room body
  | .group body _ => inside 3 room fun room => nodesObstacle? room body
  | .absent | .text .. | .boolean .. | .memory .. | .moduleImport .. => inside 2 room fun _ => none

def nodesObstacle? (room : Nat) : List Node → Option Obstacle
  | [] => none
  | node :: rest => (nodeObstacle? room node).or (nodesObstacle? room rest)

end

theorem nodesObstacle?_eq_none_iff (room : Nat) (nodes : List Node) :
    nodesObstacle? room nodes = none ↔ ∀ node ∈ nodes, nodeObstacle? room node = none := by
  induction nodes with
  | nil => simp [nodesObstacle?]
  | cons node rest ih => simp [nodesObstacle?, ih]

theorem nodeObstacle?_call (room : Nat) (name : String) (parameters : List Node) (origin : Origin)
    {yielded : Node} (some : yielded ≠ .absent) :
    nodeObstacle? room (.call name parameters yielded origin) =
      (inside 3 room fun room => nodesObstacle? room parameters).or
        (inside 2 room fun room => nodeObstacle? room yielded) := by
  cases yielded with
  | absent => exact absurd rfl some
  | _ => simp only [nodeObstacle?]

theorem nodeObstacle?_block (room : Nat) (origin : Origin) {body : List Node} (some : body ≠ []) :
    nodeObstacle? room (.block body origin) =
      inside 4 room fun room => nodesObstacle? room body := by
  cases body with
  | nil => exact absurd rfl some
  | cons node rest => simp only [nodeObstacle?]

mutual

/-- The first obstacle to the written form of a datum. -/
def writtenObstacle? (room : Nat) : Data → Option Obstacle
  | .int i => inside 1 room fun _ => digitObstacle? (Numeral.writable i)
  | .list items => inside 1 room fun room => writtenItemsObstacle? room items
  | .dict entries => inside 1 room fun room => writtenEntriesObstacle? room entries
  | .loop _ collection => writtenObstacle? room collection
  | _ => inside 1 room fun _ => none

def writtenItemsObstacle? (room : Nat) : List Data → Option Obstacle
  | [] => none
  | item :: rest => (writtenObstacle? room item).or (writtenItemsObstacle? room rest)

def writtenEntriesObstacle? (room : Nat) : List (Data × Data) → Option Obstacle
  | [] => none
  | (key, value) :: rest =>
      (writtenObstacle? room key).or
        ((writtenObstacle? room value).or (writtenEntriesObstacle? room rest))

end

/-- The first obstacle to the text of a datum in which a text is itself. -/
def displayObstacle? (room : Nat) : Data → Option Obstacle
  | .text _ => none
  | datum => writtenObstacle? room datum

def valueObstacle? (room : Nat) : Value → Option Obstacle
  | .number n => inside 4 room fun _ => digitObstacle? n.writable
  | _ => inside 2 room fun _ => none

mutual

/-- The first obstacle to the text of plain data. -/
def dataObstacle? (room : Nat) : Data → Option Obstacle
  | .null => inside 2 room fun _ => none
  | .list items => inside 3 room fun room => dataItemsObstacle? room items
  | datum => inside 2 room fun room => writtenObstacle? room datum

def dataItemsObstacle? (room : Nat) : List Data → Option Obstacle
  | [] => none
  | item :: rest => (dataObstacle? room item).or (dataItemsObstacle? room rest)

end

mutual

/-- The first obstacle to the text of an object. -/
def objectObstacle? (room : Nat) : Object → Option Obstacle
  | .absent => inside 2 room fun _ => none
  | .value v => valueObstacle? room v
  | .scope _ => inside 3 room fun _ => none
  | .tree node => nodeObstacle? room node
  | .function _ entry => entryObstacle? room entry
  | .plain _ datum => dataObstacle? room datum

def entryObstacle? (room : Nat) : Entry → Option Obstacle
  | .custom _ body => inside 2 room fun room => objectObstacle? room body
  | .inert datum => dataObstacle? room datum
  | _ => inside 2 room fun _ => none

end

/-- The text of an object, or the first obstacle to it. -/
def shown (heap : Heap) (room width level : Nat) (object : Object) : Except Obstacle String :=
  match objectObstacle? room object with
  | none => .ok (objectText heap width level object)
  | some obstacle => .error obstacle

/-- About how much room there is where the program is run. -/
def standardRoom : Nat := 990

def defaultWidth : Nat := 2

/-- What a program shows of an object: a text is shown as it is, and whatever is no value is shown
as nothing. -/
def display : Object → String
  | .value (.number n) => n.display
  | .value (.text s) => s
  | .value (.boolean b) => booleanText b
  | .value (.memory name _) => memoryText name
  | _ => absentText

end TreeScript.Layout
