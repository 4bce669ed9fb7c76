import TreeScript.Table
import TreeScript.Yaml.Token

/-!
# YAML elements

The tokens of a text form one document at most, and the elements of a document are scalars,
sequences and mappings. Sequences and mappings hold other elements by number. A missing entry is an
empty plain scalar. An anchor names an element, and an alias after it stands for the same element,
which may so become a part of itself; no anchor may be used twice.

The tokens are read one at a time and no further than needed, so of a misplaced token and a fault in
the text after it the former decides.
-/

namespace TreeScript.Yaml

/-- The number of an element among the elements of its document. -/
abbrev ElementId := Nat

/-- A scalar, a sequence or a mapping. -/
inductive Element where
  | scalar (text : String) (plain : Bool)
  | sequence (items : List ElementId)
  | mapping (entries : List (ElementId × ElementId))
deriving Inhabited

def Element.missing : Element := .scalar "" true

/-- The elements of a document and the one that holds the others. -/
structure Graph where
  elements : Array Element
  root : ElementId

/-- The tokens left to read, the fault after them, and the elements read and named so far. -/
structure Composer where
  tokens : List Token
  fault : Fault
  elements : Array Element := #[]
  anchors : Table ElementId := []

abbrev Compose (α : Type) := StateT Composer (Except Fault) α

namespace Compose

def fail {α : Type} : Compose α := throw .malformed

def peek : Compose Token := do
  let composer ← get
  match composer.tokens with
  | token :: _ => return token
  | [] => throw composer.fault

def skip : Compose Unit := modify fun composer => { composer with tokens := composer.tokens.tail }

def nextIs (tokens : List Token) : Compose Bool := do
  return tokens.contains (← peek)

/-- Passes over the next token if it is the one given. -/
def takeIf (token : Token) : Compose Bool := do
  if ← nextIs [token] then
    skip
    return true
  return false

def expect (token : Token) : Compose Unit := do
  unless ← takeIf token do fail

def aliased (name : String) : Compose ElementId := do
  match (← get).anchors.find? name with
  | some id => return id
  | none => fail

def add (anchor : Option String) (element : Element) : Compose ElementId :=
  modifyGet fun composer =>
    let id := composer.elements.size
    let anchors := match anchor with
      | some name => composer.anchors.insert name id
      | none => composer.anchors
    (id, { composer with elements := composer.elements.push element, anchors })

def addMissing : Compose ElementId := add none .missing

/-- Adds an element that may hold itself: it has its number before its parts are read. -/
def addAround (anchor : Option String) (parts : Compose Element) : Compose ElementId := do
  let id ← add anchor .missing
  let element ← parts
  modify fun composer =>
    { composer with elements := composer.elements.setIfInBounds id element }
  return id

end Compose

open Compose

mutual

/-- The element at the next token. In block style it may be an indented block, and as part of a
mapping also a sequence that is not indented. -/
def readElement : Nat → (inBlock unindented : Bool) → Compose ElementId
  | 0, _, _ => fail
  | fuel + 1, inBlock, unindented => do
      match ← peek with
      | .alias name =>
          skip
          aliased name
      | .anchor name =>
          skip
          let _ ← peek
          if (← get).anchors.has name then fail
          readContent fuel inBlock unindented (some name)
      | _ => readContent fuel inBlock unindented none

/-- The element after its anchor, if it has one. Only an anchor may name a missing element. -/
def readContent : Nat → (inBlock unindented : Bool) → (anchor : Option String) → Compose ElementId
  | 0, _, _, _ => fail
  | fuel + 1, inBlock, unindented, anchor => do
      let missing : Compose ElementId := if anchor.isSome then add anchor .missing else fail
      match ← peek with
      | .blockEntry =>
          if unindented then addAround anchor (.sequence <$> readUnindented fuel) else missing
      | .scalar text plain =>
          skip
          add anchor (.scalar text plain)
      | .flowSequenceStart =>
          skip
          addAround anchor (.sequence <$> readFlowItems fuel true)
      | .flowMappingStart =>
          skip
          addAround anchor (.mapping <$> readFlowEntries fuel true)
      | .sequenceStart =>
          if inBlock then
            skip
            addAround anchor (.sequence <$> readItems fuel)
          else missing
      | .mappingStart =>
          if inBlock then
            skip
            addAround anchor (.mapping <$> readEntries fuel)
          else missing
      | _ => missing

def readItems : Nat → Compose (List ElementId)
  | 0 => fail
  | fuel + 1 => do
      if ← takeIf .blockEntry then
        let item ← if ← nextIs [.blockEntry, .blockEnd] then addMissing
          else readElement fuel true false
        return item :: (← readItems fuel)
      expect .blockEnd
      return []

/-- The items of a sequence that is indented no more than the mapping it belongs to. -/
def readUnindented : Nat → Compose (List ElementId)
  | 0 => fail
  | fuel + 1 => do
      if ← takeIf .blockEntry then
        let item ← if ← nextIs [.blockEntry, .key, .value, .blockEnd] then addMissing
          else readElement fuel true false
        return item :: (← readUnindented fuel)
      return []

def readEntries : Nat → Compose (List (ElementId × ElementId))
  | 0 => fail
  | fuel + 1 => do
      if ← takeIf .key then
        let key ← if ← nextIs [.key, .value, .blockEnd] then addMissing
          else readElement fuel true true
        let value ← readEntryValue fuel
        return (key, value) :: (← readEntries fuel)
      expect .blockEnd
      return []

/-- The value of an entry of a block mapping. -/
def readEntryValue : Nat → Compose ElementId
  | 0 => fail
  | fuel + 1 => do
      if ← takeIf .value then
        if ← nextIs [.key, .value, .blockEnd] then addMissing else readElement fuel true true
      else addMissing

/-- The items between square brackets. An item may be a mapping of one entry without braces. -/
def readFlowItems : Nat → (first : Bool) → Compose (List ElementId)
  | 0, _ => fail
  | fuel + 1, first => do
      if ← takeIf .flowSequenceEnd then return []
      unless first do expect .flowEntry
      if ← takeIf .key then
        let item ← addAround none do
          let key ← if ← nextIs [.value, .flowEntry, .flowSequenceEnd] then addMissing
            else readElement fuel false false
          let value ← readFlowValue fuel .flowSequenceEnd
          return .mapping [(key, value)]
        return item :: (← readFlowItems fuel false)
      else if ← takeIf .flowSequenceEnd then return []
      else
        let item ← readElement fuel false false
        return item :: (← readFlowItems fuel false)

/-- The entries between braces. A key may stand without a value. -/
def readFlowEntries : Nat → (first : Bool) → Compose (List (ElementId × ElementId))
  | 0, _ => fail
  | fuel + 1, first => do
      if ← takeIf .flowMappingEnd then return []
      unless first do expect .flowEntry
      if ← takeIf .key then
        let key ← if ← nextIs [.value, .flowEntry, .flowMappingEnd] then addMissing
          else readElement fuel false false
        let value ← readFlowValue fuel .flowMappingEnd
        return (key, value) :: (← readFlowEntries fuel false)
      else if ← takeIf .flowMappingEnd then return []
      else
        let key ← readElement fuel false false
        let value ← addMissing
        return (key, value) :: (← readFlowEntries fuel false)

/-- The value of an entry inside brackets that end with the token given. -/
def readFlowValue : Nat → (closing : Token) → Compose ElementId
  | 0, _ => fail
  | fuel + 1, closing => do
      if ← takeIf .value then
        if ← nextIs [.flowEntry, closing] then addMissing else readElement fuel false false
      else addMissing

end

/-- The directives before a document. At most one names a version, and the version is 1. -/
def readDirectives : Nat → (named : Bool) → Compose Unit
  | 0, _ => fail
  | fuel + 1, named => do
      match ← peek with
      | .directive none =>
          skip
          readDirectives fuel named
      | .directive (some version) =>
          if named || version != 1 then fail
          skip
          readDirectives fuel true
      | _ => return ()

def skipDocumentEnds : Nat → Compose Unit
  | 0 => fail
  | fuel + 1 => do
      if ← takeIf .documentEnd then skipDocumentEnds fuel

/-- The document, which begins at once or after directives and a mark. -/
def readDocument (fuel : Nat) : Compose ElementId := do
  match ← peek with
  | .directive _ | .documentStart =>
      readDirectives fuel false
      expect .documentStart
      match ← peek with
      | .directive _ | .documentStart | .documentEnd | .streamEnd => addMissing
      | _ => readElement fuel true false
  | .streamEnd => addMissing
  | _ => readElement fuel true false

/-- The end of the text: marks for the end of the document, and no further document. -/
def readEnd (fuel : Nat) : Compose Unit := do
  skipDocumentEnds fuel
  unless ← takeIf .streamEnd do
    readDirectives fuel false
    fail

/-- The only document of a text. An empty text holds a missing element. -/
def Graph.ofTokens (tokens : Tokens) : Except Fault Graph := do
  let fuel := 4 * tokens.ready.length + 4
  let compose : Compose ElementId := do
    let root ← readDocument fuel
    readEnd fuel
    return root
  let (root, composer) ← compose.run { tokens := tokens.ready, fault := tokens.fault }
  return ⟨composer.elements, root⟩

end TreeScript.Yaml
