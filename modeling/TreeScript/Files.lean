import TreeScript.Path
import TreeScript.Reader
import TreeScript.Text.Lines
import TreeScript.Text.Utf8

/-!
# Files

The files that a program can reach are known in advance. The directories from which places are
counted exist, and so do those above them up to the root; of anything else only what is listed does.
A path is followed part by part, so a step upward from a missing directory fails even where the
names alone would lead to a file. The files come with what their documents are read with.
-/

namespace TreeScript

/-- What stands under a name in a directory. -/
inductive FileEntry where
  | file (bytes : List UInt8)
  | directory

/-- The known files and directories. -/
structure Files where
  working : Place := .origin
  /-- The text of the directory from which places are counted. -/
  origin : String
  /-- How many steps upward lead from there to the root. -/
  depth : Nat := 2
  entries : List (Place × FileEntry) := []
  reader : Reader := .standard

/-- Why a path cannot be read. -/
inductive FileCause where
  | notFound
  | notDirectory
  | isDirectory
  | nameTooLong
  | embeddedNull
  | unnamed
deriving Repr, DecidableEq

/-- A path that cannot be read, and why. -/
structure FileFault where
  cause : FileCause
  path : String
deriving Repr, DecidableEq

def FileFault.message (fault : FileFault) : String :=
  let about (text : String) : String := text ++ ": " ++ Data.quotedText fault.path
  match fault.cause with
  | .notFound => about "[Errno 2] No such file or directory"
  | .notDirectory => about "[Errno 20] Not a directory"
  | .isDirectory => about "[Errno 21] Is a directory"
  | .nameTooLong => about "[Errno 36] File name too long"
  | .embeddedNull => "embedded null byte"
  | .unnamed => "PosixPath(" ++ Data.quotedText fault.path ++ ") has an empty name"

namespace Files

def at? (files : Files) (place : Place) : Option FileEntry :=
  if place.names.isEmpty then some .directory
  else (files.entries.find? fun entry => entry.1 == place).map (·.2)

def isRoot (files : Files) (place : Place) : Bool :=
  place.names.isEmpty && match place.base with
    | .origin => files.depth == 0
    | .above steps => files.depth ≤ steps
    | .root => true

def text (files : Files) (place : Place) : String := place.text files.origin

def isTooLong (name : String) : Bool := 255 < name.utf8ByteSize

def follow (files : Files) (here : Place) : List String → Except FileCause FileEntry
  | [] => .ok .directory
  | ".." :: rest => files.follow here.up rest
  | part :: rest =>
      if isTooLong part then .error .nameTooLong
      else match files.at? (here.below part), rest with
        | none, _ => .error .notFound
        | some .directory, rest => files.follow (here.below part) rest
        | some (.file bytes), [] => .ok (.file bytes)
        | some (.file _), _ => .error .notDirectory

/-- The bytes of the file that a path leads to from the working directory. -/
def bytes (files : Files) (path : Path) : Except FileFault (List UInt8) :=
  let fail (cause : FileCause) : Except FileFault (List UInt8) := .error ⟨cause, path.text⟩
  if path.text.toList.contains '\x00' then fail .embeddedNull
  else
    let start : Place := if path.root = "" then files.working else ⟨.root, []⟩
    match files.follow start path.parts with
    | .ok (.file bytes) => .ok bytes
    | .ok .directory => fail .isDirectory
    | .error cause => fail cause

/-- The place holds a file. A missing place does not; a name that is too long is a fault. -/
def isFile (files : Files) (place : Place) : Except FileFault Bool :=
  match files.follow ⟨place.base, []⟩ place.names with
  | .ok (.file _) => .ok true
  | .error .nameTooLong => .error ⟨.nameTooLong, files.text place⟩
  | _ => .ok false

def ancestors (place : Place) : List Place :=
  (List.range place.names.length).tail.map fun count => ⟨place.base, place.names.take count⟩

/-- The files after one is put at a place; missing directories on the way to it are made. -/
def put (files : Files) (place : Place) (bytes : List UInt8) : Files :=
  let missing := (ancestors place).filter fun directory =>
    !files.entries.any (·.1 == directory)
  { files with
    entries := files.entries.filter (·.1 != place) ++ missing.map (·, .directory)
      ++ [(place, .file bytes)] }

def remove (files : Files) (place : Place) : Files :=
  { files with
    entries := files.entries.filter fun entry =>
      !(entry.1.base == place.base && place.names.isPrefixOf entry.1.names) }

end Files

end TreeScript
