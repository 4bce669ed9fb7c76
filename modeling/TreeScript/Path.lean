import TreeScript.Text.Quoted

/-!
# Paths

A path is a text whose parts are separated by slashes. Empty parts and single points say nothing.
A place is a path made independent of the directory it starts from: in it every step upward is
carried out on the names alone.
-/

namespace TreeScript

/-- A path: what it starts with and its parts. -/
structure Path where
  root : String
  parts : List String
deriving Repr, DecidableEq

namespace Path

def splitSlashes : List Char → List (List Char)
  | [] => [[]]
  | '/' :: rest => [] :: splitSlashes rest
  | c :: rest => match splitSlashes rest with
    | [] => [[c]]
    | piece :: pieces => (c :: piece) :: pieces

/-- The path that a text denotes. Two slashes at the start are kept apart from one or from many. -/
def ofText (text : String) : Path :=
  let chars := text.toList
  let root := match (chars.takeWhile (· == '/')).length with
    | 0 => ""
    | 2 => "//"
    | _ => "/"
  ⟨root, ((splitSlashes chars).map String.ofList).filter fun part => part != "" && part != "."⟩

def text (path : Path) : String :=
  if path.root == "" && path.parts.isEmpty then "." else path.root ++ "/".intercalate path.parts

def parent (path : Path) : Path := ⟨path.root, path.parts.dropLast⟩

/-- The suffix of a name: from its last point on, unless that is at either end. -/
def suffixOf (name : String) : String :=
  let back := name.toList.reverse
  let after := back.takeWhile (· != '.')
  match back.drop after.length with
  | '.' :: _ :: _ => if after.isEmpty then "" else String.ofList ('.' :: after.reverse)
  | _ => ""

def suffix (path : Path) : String := suffixOf (path.parts.getLastD "")

end Path

/-- A directory from which places are counted: the origin, one a number of steps above it, or the
root of all. -/
inductive Base where
  | origin
  | above (steps : Nat)
  | root
deriving Repr, DecidableEq

/-- A directory or file as a base and the names below it. -/
structure Place where
  base : Base
  names : List String
deriving Repr, DecidableEq

namespace Place

def origin : Place := ⟨.origin, []⟩

/-- The directory above; nothing lies above the root. -/
def up (place : Place) : Place :=
  match place.names, place.base with
  | _ :: _, base => ⟨base, place.names.dropLast⟩
  | [], .origin => ⟨.above 1, []⟩
  | [], .above steps => ⟨.above (steps + 1), []⟩
  | [], .root => place

def below (place : Place) (name : String) : Place := ⟨place.base, place.names ++ [name]⟩

def step (place : Place) (part : String) : Place :=
  if part = ".." then place.up else place.below part

def resolve (place : Place) (path : Path) : Place :=
  path.parts.foldl step (if path.root = "" then place else ⟨.root, []⟩)

def name (place : Place) : String := place.names.getLastD ""

/-- The place beside this one whose name has more letters at its end. -/
def extended (place : Place) (suffix : String) : Place :=
  match place.names with
  | [] => place.up.below suffix
  | _ => place.up.below (place.name ++ suffix)

def text (origin : String) (place : Place) : String :=
  match place.base with
  | .origin => "/".intercalate (origin :: place.names)
  | .above steps => "/".intercalate (origin :: List.replicate steps ".." ++ place.names)
  | .root => "/" ++ "/".intercalate place.names

end Place

end TreeScript
