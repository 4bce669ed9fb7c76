import TreeScript.Runner

/-!
# The command line

A document is read from a file or from the standard input, and is run or only printed as a tree.
What the run printed goes to the output, followed by the value of the program if it has one; an
error goes to the error stream, and the exit code tells whether there was one. The console may be
unable to take a line of the output, as one with characters that its encoding does not have.
-/

namespace TreeScript.CommandLine

def help : String :=
  "\n".intercalate
    [ "Function-based language interpreter.",
      "Usage: beans [OPTIONS] [PATH]",
      "",
      "PATH is an AST document (.json, .yaml or .yml) produced by a bean parser.",
      "",
      "Options:",
      "  -p, --parse     Print the transformed AST without evaluating it.",
      "  -h, --help      Print this message and exit.",
      "  -i, --stdin     Read the AST document from stdin." ]

/-- What the arguments ask for. -/
structure Arguments where
  none : Bool
  help : Bool
  parse : Bool
  stdin : Bool
  path : Option String
deriving Repr, DecidableEq

/-- An argument that starts with a hyphen is a flag. -/
def isFlag (argument : String) : Bool := argument.toList.head? == some '-'

/-- Reads the arguments. The first one that is no flag is the path; unknown flags say nothing. -/
def Arguments.ofList (arguments : List String) : Arguments :=
  let flags := arguments.filter isFlag
  { none := arguments.isEmpty
    help := flags.contains "--help" || flags.contains "-h"
    parse := flags.contains "--parse" || flags.contains "-p"
    stdin := flags.contains "--stdin" || flags.contains "-i"
    path := arguments.find? fun argument => !isFlag argument }

/-- The place of the file that the document is read from, if it comes from one. -/
def Arguments.place? (files : Files) (arguments : Arguments) : Option Place :=
  if arguments.stdin then .none
  else .some (files.working.resolve (Path.ofText (arguments.path.getD "")))

/-- What the command writes and how it ends: with an exit code, or with an interrupt that it does
not handle. -/
structure Answer where
  output : List String
  errors : List String
  exit : Except Interrupt Nat

/-- What the output goes to. -/
structure Console where
  /-- Why a line cannot be written, if it cannot. -/
  refusal? : String → Option String

namespace Console

/-- The console that takes every line. -/
def standard : Console := ⟨fun _ => none⟩

/-- The lines that are written, those before the first that cannot be, and why that cannot. -/
def take (console : Console) : List String → List String × Option String
  | [] => ([], none)
  | line :: rest => match console.refusal? line with
    | some reason => ([], some reason)
    | none =>
        let (taken, refusal?) := console.take rest
        (line :: taken, refusal?)

/-- Some lines and then an answer, which is not reached if a line cannot be written. What the error
stream got before the lines is given too. -/
def print (console : Console) (errors lines : List String) (rest : Answer) : Answer :=
  match console.take lines with
  | (taken, none) => { rest with output := taken ++ rest.output }
  | (taken, some reason) => ⟨taken, errors, .error (.failure (.unencodable reason))⟩

end Console

/-- The document and its directory, or how the command ends without one. -/
def readDocument (files : Files) (arguments : Arguments) (stdin : List Char) :
    Except Answer (Data × Place) :=
  let refuse (fault : DecodeFault) : Answer := match fault.interrupt? decodingKinds with
    | some interrupt => ⟨[], [], .error interrupt⟩
    | none => ⟨[], ["Error: " ++ fault.message], .ok 1⟩
  if arguments.stdin then
    match Document.decode files.reader stdin with
    | .ok document => .ok (document, files.working)
    | .error fault => .error (refuse fault)
  else
    let given := arguments.path.getD ""
    let path := Path.ofText given
    match Document.atPath files path with
    | .ok document => .ok (document, files.working.resolve path.parent)
    | .error (.file fault) => match fault.cause with
      | .notFound => .error ⟨[], ["Error: file not found: " ++ given], .ok 1⟩
      | .embeddedNull => .error (refuse (.file fault))
      | _ => .error ⟨[], [], .error (.failure (.file fault))⟩
    | .error fault => .error (refuse fault)

/-- The room for laying out what is shown. The command does that two calls further out than a runner
lays out its report. -/
def room (settings : Settings) : Nat := settings.room + 2

/-- Prints the tree of a document. A line that the console cannot take counts as a fault of the
document. -/
def printProgram (console : Console) (settings : Settings) (document : Data) : Answer :=
  let refuse (message : String) : Answer := ⟨[], ["DocumentError: " ++ message], .ok 1⟩
  match Document.load settings.files.reader document with
  | .error fault => match fault.interrupt? with
    | some interrupt => ⟨[], [], .error interrupt⟩
    | none => refuse fault.message
  | .ok program => match Layout.nodeObstacle? (room settings) program with
    | some .unwritable => refuse Failure.unwritable.message
    | some .tooDeep => ⟨[], [], .error .tooDeep⟩
    | none =>
        let text := Layout.nodeText Layout.defaultWidth 0 program
        match console.refusal? text with
        | none => ⟨[text], [], .ok 0⟩
        | some reason => refuse reason

def tracedLines (events : List Event) : List String :=
  events.filterMap fun
    | .traced line => some line
    | _ => none

/-- The state of a fresh interpreter with one runtime. -/
def freshState : State :=
  let (registry, state) := State.addRegistry {}
  (state.addRuntime registry none none false).2

/-- Shows a text, if nothing stands in its way. -/
def showText (console : Console) (traced : List String) :
    Except Layout.Obstacle String → Answer
  | .ok text => console.print traced [text] ⟨[], traced, .ok 0⟩
  | .error obstacle => ⟨[], traced, .error obstacle.interrupt⟩

/-- Shows the value of a program, or tells its error with the place that it is about. -/
def showOutcome (console : Console) (settings : Settings) (heap : Heap) (traced : List String) :
    Outcome → Answer
  | .error report => match report.located (room settings - 1) with
    | .ok message => ⟨[], traced ++ [message], .ok 1⟩
    | .error obstacle => ⟨[], traced, .error obstacle.interrupt⟩
  | .success .absent => ⟨[], traced, .ok 0⟩
  | .success value =>
      showText console traced (Layout.shown heap (room settings) Layout.defaultWidth 0 value)

/-- Runs a document for whose imports the directory counts, and shows how the run ended. -/
def runDocument (console : Console) (depth : Nat) (settings : Settings) (document : Data)
    (directory : Place) (place : Option Place) : Answer :=
  let runner : Runner := { runtime := 0, directory := some directory }
  let (result, state) := runner.runFrom depth place (.data document) settings freshState
  let traced := tracedLines state.history
  match result with
  | .error interrupt => ⟨[], traced, .error interrupt⟩
  | .ok result =>
      console.print traced (printedTexts (state.journal result.journal))
        (showOutcome console settings state.heap traced result.outcome)

def run (console : Console) (depth : Nat) (settings : Settings) (arguments : List String)
    (stdin : List Char) : Answer :=
  let arguments := Arguments.ofList arguments
  if arguments.none || arguments.help || (arguments.path.isNone && !arguments.stdin) then
    console.print [] [help] ⟨[], [], .ok 0⟩
  else match readDocument settings.files arguments stdin with
    | .error answer => answer
    | .ok (document, directory) =>
        if arguments.parse then printProgram console settings document
        else runDocument console depth settings document directory
          (arguments.place? settings.files)

end TreeScript.CommandLine
