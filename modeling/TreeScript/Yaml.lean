import TreeScript.Data.Loop
import TreeScript.Yaml.Merge

/-!
# YAML

The datum that a YAML text denotes. Keys are scalars; a key that occurs twice keeps its first place
and its last value. The entries merged into a mapping come before its own.

The elements of a document are taken for data level by level: first all parts of the outermost
sequence or mapping, then the parts of each of these, and so on. The first element that stands for
no datum decides the fault. Only then are the data put together.
-/

namespace TreeScript.Yaml

def scalarData (text : String) (plain : Bool) : Except Fault Data :=
  if plain then
    match Plain.ofText text with
    | .datum value => .ok value
    | .merge | .default => .error .malformed
    | .faulty fault => .error fault
  else .ok (.text text)

/-- Where the passage through the levels of a document stands. -/
structure Survey where
  elements : Elements
  /-- The sequences and mappings met so far, by their numbers. -/
  met : Array Bool
  /-- Those met on the level after the present one, the last first. -/
  next : List ElementId := []

namespace Survey

/-- Meets an element: a scalar has to stand for a datum, and a sequence or a mapping that was not
met before belongs to the next level. -/
def meet (survey : Survey) (id : ElementId) : Except Fault Survey :=
  match survey.elements.get id with
  | .scalar text plain => (scalarData text plain).map fun _ => survey
  | _ =>
      if survey.met.getD id true then .ok survey
      else .ok { survey with met := survey.met.setIfInBounds id true, next := id :: survey.next }

/-- Meets a key, which has to be a scalar, and the value after it. -/
def meetEntry (survey : Survey) (entry : Entry) : Except Fault Survey := do
  match survey.elements.get entry.1 with
  | .scalar .. => (← survey.meet entry.1).meet entry.2
  | _ => .error .malformed

/-- Meets the parts of a sequence, or of a mapping once what it merges is merged. -/
def enter (merges : Nat) (survey : Survey) (id : ElementId) : Except Fault Survey := do
  match survey.elements.get id with
  | .scalar .. => return survey
  | .sequence items => items.foldlM meet survey
  | .mapping _ =>
      let elements ← Elements.mergeInto (merges + 1) id [] survey.elements
      (elements.entries id).foldlM meetEntry { survey with elements }

def run (merges : Nat) : Nat → Survey → Except Fault Elements
  | 0, survey => .ok survey.elements
  | fuel + 1, survey =>
      if survey.next.isEmpty then .ok survey.elements
      else do
        let survey ← survey.next.reverse.foldlM (enter merges) { survey with next := [] }
        run merges fuel survey

end Survey

/-- The elements of a document in which every merge is done and every scalar stands for a datum. -/
def Graph.settled (graph : Graph) : Except Fault Elements := do
  let elements : Elements := ⟨graph.elements⟩
  let start : Survey := { elements, met := Array.replicate graph.elements.size false }
  Survey.run elements.mergeCount (graph.elements.size + 1) (← start.meet graph.root)

/-- A datum together with the numbers of the elements around it that it refers to. -/
structure Part where
  datum : Data
  references : List ElementId := []

/-- Putting data together. What refers to no element around it is the same wherever it occurs, and
is kept by the number of its element. -/
abbrev Build (α : Type) := StateT (Array (Option Data)) (Except Fault) α

namespace Build

def kept? (id : ElementId) : Build (Option Data) := do return (← get).getD id none

/-- A sequence or a mapping from its parts and what they refer to. It is a loop if that is itself or
an element around it, for it can be reached from there. -/
def finish (id : ElementId) (datum : Data) (references : List ElementId) : Build Part := do
  if references.isEmpty then
    modify fun kept => kept.setIfInBounds id (some datum)
    return ⟨datum, []⟩
  return ⟨.loop id datum, references.eraseDups.filter (· != id)⟩

/-- The datum of an element, where `around` are the elements that it is a part of. -/
def part (elements : Elements) : Nat → List ElementId → ElementId → Build Part
  | 0, _, _ => throw .malformed
  | fuel + 1, around, id => do
      match elements.get id with
      | .scalar text plain => return ⟨← scalarData text plain, []⟩
      | .sequence items =>
          if let some datum := ← kept? id then return ⟨datum, []⟩
          if around.contains id then return ⟨.again id false, [id]⟩
          let parts ← items.mapM (part elements fuel (id :: around))
          finish id (.list (parts.map (·.datum))) (parts.flatMap (·.references))
      | .mapping entries =>
          if let some datum := ← kept? id then return ⟨datum, []⟩
          if around.contains id then return ⟨.again id true, [id]⟩
          let parts ← entries.mapM fun (key, value) => do
            return (← part elements fuel (id :: around) key,
              ← part elements fuel (id :: around) value)
          finish id (.dictOf (parts.map fun (key, value) => (key.datum, value.datum)))
            (parts.flatMap fun (_, value) => value.references)

end Build

def decode (text : List Char) : Except Fault Data := do
  let graph ← Graph.ofTokens (Tokens.ofText text)
  let elements ← graph.settled
  let size := elements.all.size
  let (part, _) ← (Build.part elements (size + 1) [] graph.root).run (Array.replicate size none)
  return part.datum

/-- The wording of a fault. What makes a text malformed is not told. -/
def Fault.message : Fault → String
  | .malformed => "<yaml>"
  | .unsupported => "explicit tags and halves of characters are not supported"
  | .tooManyDigits count => Numeral.tooManyDigitsMessage count
  | .noDigits base => "invalid literal for int() with base " ++ base.repr ++ ": ''"
  | .codeOutOfRange => "chr() arg not in range(0x110000)"
  | .codeTooLarge => "Python int too large to convert to C int"
  | .weightTooLarge => "int too large to convert to float"

end TreeScript.Yaml
