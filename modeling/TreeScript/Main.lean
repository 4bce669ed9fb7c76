import TreeScript.CommandLine

/-!
# The program

Everything that the command may read is read first: the document, and every file that an import in
a document read so far may lead to. The command itself then works on what was read.
-/

namespace TreeScript.Main

/-- The files that were read, and the places that were looked at. -/
structure Disk where
  files : Files
  seen : List Place := []

/-- What stands at a place on the disk, if anything does. -/
def look (disk : Disk) (place : Place) : IO (Option FileEntry) := do
  try
    let bytes ← IO.FS.readBinFile (disk.files.text place)
    return some (.file bytes.toList)
  catch
    | .inappropriateType .. => return some .directory
    | _ => return none

def readPlace (disk : Disk) (place : Place) : IO Disk := do
  if place.names.isEmpty || disk.seen.contains place then return disk
  let disk := { disk with seen := place :: disk.seen }
  match ← look disk place with
  | none => return disk
  | some entry =>
      let entries := disk.files.entries ++ [(place, entry)]
      return { disk with files := { disk.files with entries } }

/-- Reads what stands at a place and the directories on the way to it. -/
def readWithAncestors (disk : Disk) (place : Place) : IO Disk := do
  let disk ← (Files.ancestors place).foldlM readPlace disk
  readPlace disk place

/-- The places that the parts of a path lead to one after the other. -/
def placesAlong (start : Place) (path : Path) : List Place :=
  (List.range (path.parts.length + 1)).map fun count =>
    start.resolve { path with parts := path.parts.take count }

/-- The directory of each program file that was read, and the names that the file imports. -/
def programs (files : Files) : List (Place × List String) :=
  files.entries.filterMap fun (place, _) =>
    match files.program place with
    | .ok program => some (place.up, program.imports)
    | .error _ => none

/-- Reads the files that imports may lead to until there are no new ones. When a function of one
module is called by another, its imports start from the directory of the caller, so each name is
tried in each directory. -/
partial def readImports (directory : Place) (names : List String) (disk : Disk) : IO Disk := do
  let found := programs disk.files
  let directories := (directory :: found.map (·.1)).eraseDups
  let wanted := (names ++ found.flatMap (·.2)).eraseDups.filter isLocalName
  let targets := directories.flatMap fun directory =>
    wanted.map fun name => directory.resolve (Path.ofText name)
  let after ← (targets.flatMap moduleCandidates).foldlM readWithAncestors disk
  if after.files.entries.length == disk.files.entries.length then return after
  readImports directory names after

partial def readAll (stream : IO.FS.Stream) (sofar : ByteArray) : IO ByteArray := do
  let bytes ← stream.read 65536
  if bytes.isEmpty then return sofar
  readAll stream (sofar ++ bytes)

def readStandardInput : IO (List Char) := do
  let bytes ← readAll (← IO.getStdin) ByteArray.empty
  return Text.unifyLineEnds (Text.Utf8.decodeLossy bytes.toList)

def perform (argv : List String) : IO CommandLine.Answer := do
  let arguments := CommandLine.Arguments.ofList argv
  let stdin ← if arguments.stdin then readStandardInput else pure []
  let here := Place.resolve ⟨.root, []⟩ (Path.ofText (← IO.currentDir).toString)
  let start : Disk := ⟨{ working := here, origin := "" }, []⟩
  let path := Path.ofText (arguments.path.getD "")
  let disk ← (placesAlong here path).foldlM readWithAncestors start
  let disk ← match CommandLine.readDocument disk.files arguments stdin with
    | .error _ => pure disk
    | .ok (document, directory) => match Document.load disk.files.reader document with
      | .error _ => pure disk
      | .ok program => readImports directory program.imports disk
  let settings := Settings.ofTexts (← IO.getEnv "BEAN_MAX_REDUCTION_STEPS")
    (← IO.getEnv "BEAN_DEBUG") disk.files
  return CommandLine.run .standard defaultDepth settings argv stdin

end TreeScript.Main

def main (argv : List String) : IO UInt32 := do
  let answer ← TreeScript.Main.perform argv
  for line in answer.output do
    IO.println line
  for line in answer.errors do
    IO.eprintln line
  match answer.exit with
  | .ok code => return UInt32.ofNat code
  | .error interrupt =>
      IO.eprintln interrupt.headline
      return 1
