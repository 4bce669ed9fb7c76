import TreeScript.Yaml.Element
import TreeScript.Yaml.Scalar

/-!
# Merging YAML mappings

An entry whose key is the sign of a merge stands for the entries of its value, which is a mapping or
a sequence of mappings. They come before the entries that the mapping has itself; of a sequence the
last mapping comes first. What is merged is merged into first, and this changes the mapping wherever
it occurs. A mapping that is merged into itself has lost the sign by then, so every merge takes away
one sign and the merges come to an end.
-/

namespace TreeScript.Yaml

/-- What an element stands for if it is a plain scalar. -/
def Element.plain? : Element → Option Plain
  | .scalar text true => some (.ofText text)
  | _ => none

/-- The element is the sign of a merge when it is a key. -/
def Element.isMergeSign (element : Element) : Bool :=
  match element.plain? with
  | some .merge => true
  | _ => false

/-- The element as a key: the sign for a default is a text there. -/
def Element.asKey (element : Element) : Element :=
  match element, element.plain? with
  | .scalar text _, some .default => .scalar text false
  | element, _ => element

/-- An entry of a mapping: its key and its value. -/
abbrev Entry := ElementId × ElementId

/-- The elements of a document by their numbers. -/
structure Elements where
  all : Array Element

namespace Elements

def get (elements : Elements) (id : ElementId) : Element := elements.all.getD id .missing

def set (elements : Elements) (id : ElementId) (element : Element) : Elements :=
  ⟨elements.all.setIfInBounds id element⟩

/-- The entries of a mapping; other elements have none. -/
def entries (elements : Elements) (id : ElementId) : List Entry :=
  match elements.get id with
  | .mapping entries => entries
  | _ => []

def isMerge (elements : Elements) (entry : Entry) : Bool := (elements.get entry.1).isMergeSign

def mergeCount (elements : Elements) : Nat :=
  elements.all.foldl (fun count element => count + match element with
    | .mapping entries => entries.countP elements.isMerge
    | _ => 0) 0

/-- The elements after the keys of a mapping are taken for what they are as keys. -/
def settleKeys (elements : Elements) (id : ElementId) : Elements :=
  (elements.entries id).foldl
    (fun elements entry => elements.set entry.1 (elements.get entry.1).asKey) elements

/-- The elements after the merges of a mapping, where `merged` are the entries merged so far. The
number of merges bounds the steps. -/
def mergeInto : Nat → ElementId → List Entry → Elements → Except Fault Elements
  | 0, _, _, _ => .error .malformed
  | fuel + 1, id, merged, elements => do
      let entries := elements.entries id
      match entries.find? elements.isMerge with
      | none => return (elements.set id (.mapping (merged ++ entries))).settleKeys id
      | some (_, source) =>
          let before := entries.takeWhile fun entry => !elements.isMerge entry
          let after := entries.drop (before.length + 1)
          let elements := elements.set id (.mapping (before ++ after))
          let gather (sofar : List Entry × Elements) (part : ElementId) :
              Except Fault (List Entry × Elements) := do
            match sofar.2.get part with
            | .mapping _ =>
                let elements ← mergeInto fuel part [] sofar.2
                return (elements.entries part ++ sofar.1, elements)
            | _ => .error .malformed
          let parts := match elements.get source with
            | .sequence items => items
            | _ => [source]
          let (more, elements) ← parts.foldlM gather ([], elements)
          mergeInto fuel id (merged ++ more) elements

end Elements

end TreeScript.Yaml
