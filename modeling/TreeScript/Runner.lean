import TreeScript.Report

/-!
# Running programs

A runner evaluates one program after another in one runtime. Each run has a journal of its own,
which keeps what was printed and, at the end, the message of the error that ended the run. Files
imported by a program are found beside it.
-/

namespace TreeScript

/-- A program as it is given to a runner. -/
inductive Script where
  | data (document : Data)
  | bytes (content : List UInt8)
  | program (node : Node)

def Script.load (reader : Reader) : Script → Except LoadFault Node
  | data document => Document.load reader document
  | bytes content => Document.loadBytes reader content
  | program node => .ok node

/-- How a run ended. -/
inductive Outcome where
  | success (value : Object)
  | error (report : Report)

/-- How a run ended and the journal it has written. -/
structure RunResult where
  outcome : Outcome
  journal : JournalId

/-- Something that runs programs in a runtime. -/
structure Runner where
  runtime : RuntimeId
  /-- Modules that are registered at the start of each run. -/
  modules : List (String × Source) := []
  directory : Option Place := none

namespace Runner

def registerAll (registry : RegistryId) : List (String × Source) → Rule Unit
  | [] => return ()
  | (name, source) :: rest => do
      let outcome ← Rule.inspect fun _ state => (state.registry registry).register name source
      match outcome with
      | .error failure => Rule.failure failure
      | .ok _ => do
          Rule.perform (.register registry name source)
          registerAll registry rest

/-- Registers the modules of the runner and evaluates a program in the root scope. The place is that
of the program's file, if it comes from one. -/
def programRule (runner : Runner) (place : Option Place) (program : Node) : Rule Object := do
  let registry ← Rule.inspect fun _ state => (state.runtime runner.runtime).registry
  registerAll registry runner.modules
  let program ← marked program
  let root ← Rule.inspect fun _ state => (state.runtime runner.runtime).root
  match place with
  | none => Rule.evaluate runner.runtime (.ofNode program) { scope := root }
  | some place => evaluateFile runner.runtime place program root

def evaluateProgram (depth : Nat) (runner : Runner) (place : Option Place) (program : Node) :
    Action Object :=
  (runner.programRule place program).run (evaluate depth)

def failWith (runner : Runner) (report : Report) : Action RunResult := do
  Action.update (·.note runner.runtime ⟨.error, report.message⟩)
  let journal ← Action.inspect fun state => (state.runtime runner.runtime).journal
  return ⟨.error report, journal⟩

def failToLoad (runner : Runner) (message : String) : Action RunResult :=
  runner.failWith ⟨"DocumentError: " ++ message, none, none⟩

/-- Runs a script, which may come from the file at a place. Whatever ends the evaluation early
becomes a report. -/
def runFrom (depth : Nat) (runner : Runner) (place : Option Place) (script : Script) :
    Action RunResult := do
  let settings ← Action.settings
  let files := settings.files
  Action.update (·.renewJournal runner.runtime)
  Action.update (·.modifyRuntime runner.runtime fun runtime =>
    { runtime with calls := [], directory := some (runner.directory.getD files.working) })
  match script.load files.reader with
  | .error fault => match fault.interrupt? with
    | some interrupt => Action.interrupt interrupt
    | none => runner.failToLoad fault.message
  | .ok program =>
      match ← (runner.evaluateProgram depth place program).attempt with
      | .ok value =>
          let journal ← Action.inspect fun state => (state.runtime runner.runtime).journal
          return ⟨.success value, journal⟩
      | .error interrupt =>
          let current ← Action.inspect fun state => (state.runtime runner.runtime).current
          match interrupt.report settings.room current with
          | .ok report => runner.failWith report
          | .error obstacle => Action.interrupt obstacle.interrupt

def run (depth : Nat) (runner : Runner) (script : Script) : Action RunResult :=
  runner.runFrom depth none script

/-- Runs the document in a file. From then on the directory of that file is the directory of the
runner, even if the run fails. -/
def runFile (depth : Nat) (runner : Runner) (path : Path) :
    Action (Runner × Except Interrupt RunResult) := do
  let files := (← Action.settings).files
  match Document.atPath files path with
  | .error fault => match fault.interrupt? decodingKinds with
    | some interrupt => return (runner, .error interrupt)
    | none => do
        Action.update (·.renewJournal runner.runtime)
        return (runner, .ok (← runner.failToLoad fault.message))
  | .ok document => do
      let runner := { runner with directory := some (files.working.resolve path.parent) }
      let place := files.working.resolve path
      return (runner, ← (runner.runFrom depth (some place) (.data document)).attempt)

end Runner

def printedTexts (notes : List Note) : List String :=
  notes.filterMap fun note => if note.stream = .output then some note.text else none

end TreeScript
