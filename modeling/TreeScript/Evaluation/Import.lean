import TreeScript.Document
import TreeScript.Evaluation.Rule

/-!
# Imports

A name that starts with a step to the same directory or upward names a file beside the program; any
other name is looked up in the registry. A file is evaluated once, in a runtime of its own that
shares the registry, and its root scope is the module. A file that is being loaded cannot be
imported again before it is finished. In either case the module becomes a namespace of the root
scope of the runtime that imports it.
-/

namespace TreeScript

/-- A fault that does not count as one of the document, as what ends an evaluation. Faults of the
given kinds do count. -/
def DecodeFault.interrupt? (kinds : List FaultKind) : DecodeFault → Option Interrupt
  | .decoder _ (.raised kind message) =>
      if kinds.contains kind then none else some (.failure (.document message))
  | .decoder _ .tooDeep => some .tooDeep
  | _ => none

/-- The kinds of faults that count where a document is only decoded. -/
def decodingKinds : List FaultKind := [.value]

/-- The kinds of faults that count where the program of a document is loaded. -/
def loadingKinds : List FaultKind := [.value, .type, .key]

/-- A fault that does not count as one of the document, as what ends an evaluation. -/
def LoadFault.interrupt? : LoadFault → Option Interrupt
  | .decode fault => fault.interrupt? loadingKinds
  | .tree .endless => some .tooDeep
  | .tree _ => none

theorem DecodeFault.eq_of_interrupt? {kinds : List FaultKind} {fault : DecodeFault}
    {reason : Interrupt} (found : fault.interrupt? kinds = some reason) :
    (∃ message, reason = .failure (.document message)) ∨ reason = .tooDeep := by
  unfold DecodeFault.interrupt? at found
  split at found
  · split at found <;> cases found
    exact .inl ⟨_, rfl⟩
  · cases found
    exact .inr rfl
  · cases found

/-- Only a failure or too deep a nesting does not count as a fault of the document. -/
theorem LoadFault.eq_of_interrupt? {fault : LoadFault} {reason : Interrupt}
    (found : fault.interrupt? = some reason) :
    (∃ message, reason = .failure (.document message)) ∨ reason = .tooDeep := by
  unfold LoadFault.interrupt? at found
  split at found
  · exact DecodeFault.eq_of_interrupt? found
  · cases found
    exact .inr rfl
  · cases found

def moduleSuffixes : List String := [".json", ".yaml", ".yml"]

def isLocalName (name : String) : Bool :=
  ['.', '/'].isPrefixOf name.toList || ['.', '.', '/'].isPrefixOf name.toList

/-- The places where the file of a module may be: the target itself if its suffix is that of a
program file, and then the target with each suffix. -/
def moduleCandidates (target : Place) : List Place :=
  let itself := if (Format.ofSuffix? (Path.suffixOf target.name)).isSome then [target] else []
  itself ++ moduleSuffixes.map target.extended

def Files.firstFile? (files : Files) : List Place → Except FileFault (Option Place)
  | [] => .ok none
  | place :: rest => do
      if ← files.isFile place then return some place
      files.firstFile? rest

def Files.program (files : Files) (place : Place) : Except LoadFault Node :=
  match files.at? place with
  | some (.file bytes) => Document.loadFile files.reader (Path.suffixOf place.name) bytes
  | some .directory => .error (.decode (.file ⟨.isDirectory, files.text place⟩))
  | none => .error (.decode (.file ⟨.notFound, files.text place⟩))

open Rule

def Blueprint.rule (blueprint : Blueprint) : Rule ScopeId := do
  let scope ← inspect fun _ state => (blueprint.build state.heap).1
  perform (.build blueprint)
  return scope

def Recipe.rule (name : String) : Recipe → Rule ScopeId
  | .scope blueprint => blueprint.rule
  | .existing id => return id
  | .other kind => failure (.noScope name kind)
  | .crash message => failure (.crash message)

/-- The module registered under a name. A factory that has not run does so now, and the module is
settled if it returns a scope. -/
def registeredModule (id : RegistryId) (name : String) : Rule (Option ScopeId) := do
  let found ← inspect fun _ state => (state.registry id).modules.find? name
  match found with
  | none => return none
  | some (.ready scope) => return some scope
  | some (.pending factory) => do
      let runs ← inspect fun _ state => state.factoryRuns
      perform (.runFactory factory.label)
      let scope ← (factory.recipe runs).rule name
      perform (.settle id name scope)
      return some scope

/-- A tree with marks that nothing has. -/
def marked (node : Node) : Rule Node := do
  let node' ← inspect fun _ state => (state.mark node).1
  perform (.mark node)
  return node'

variable (runtime : RuntimeId)

/-- Evaluates the program of the file at a place, and records where that begins and where it
ends. -/
def evaluateFile (place : Place) (program : Node) (scope : ScopeId) : Rule Object := do
  perform (.begin place)
  let result ← evaluate runtime (.ofNode program) { scope }
  perform (.finish place)
  return result

/-- Evaluates a program in a new runtime as the module of the file at a place. The runtime prints
where the importing one does. -/
def evaluateModule (place : Place) (program : Node) : Rule ScopeId := do
  let program ← marked program
  let module ← inspect fun _ state => state.runtimes.size
  perform (.addRuntime runtime place.up)
  let root ← inspect fun _ state => (state.runtime module).root
  let _ ← inside (.loading runtime place) (evaluateFile module place program root)
  perform (.keep runtime place root)
  return root

def Files.moduleAt? (files : Files) (directory : Place) (name : String) :
    Except FileFault (Option Place) :=
  if name.toList.contains '\x00' then .error ⟨.embeddedNull, name⟩
  else
    let target := directory.resolve (Path.ofText name)
    if files.isRoot target then .error ⟨.unnamed, "/"⟩
    else files.firstFile? (moduleCandidates target)

def State.directoryOf (state : State) (files : Files) (runtime : RuntimeId) : Place :=
  (state.runtime runtime).directory.getD files.working

/-- The module of the file at a place, which is evaluated unless that was done before. -/
def moduleOfFile (place : Place) : Rule ScopeId := do
  let loaded ← inspect fun _ state => (state.registryOf runtime).loaded? place
  match loaded with
  | some scope => return scope
  | none => do
      if ← inspect fun _ state => (state.registryOf runtime).isLoading place then
        fail runtime .moduleInProgress
      else do
        let files ← inspect fun settings _ => settings.files
        match files.program place with
        | .error fault => match fault.interrupt? with
          | some interrupt => halt interrupt
          | none => fail runtime (.unreadableModule (files.text place) fault.message)
        | .ok program => evaluateModule runtime place program

/-- The module of the file that a name leads to from the directory of the runtime. -/
def localModule (name : String) : Rule ScopeId := do
  let found ← inspect fun settings state =>
    settings.files.moduleAt? (state.directoryOf settings.files runtime) name
  match found with
  | .error fault => failure (.file fault)
  | .ok none => fail runtime (.missingModule name)
  | .ok (some place) => moduleOfFile runtime place

def moduleOf (name : String) : Rule (Option ScopeId) :=
  if isLocalName name then some <$> localModule runtime name
  else do
    let registry ← inspect fun _ state => (state.runtime runtime).registry
    registeredModule registry name

/-- Imports a module: finds its scope and makes it a namespace of the root scope. -/
def importModule (node : Node) (name : String) : Rule Object := do
  let found ← moduleOf runtime name
  match found with
  | none => fail runtime (.unknownModule name) node
  | some scope => do
      trace ("import " ++ name)
      let root ← inspect fun _ state => (state.runtime runtime).root
      perform (.attach root name scope)
      return .scope scope

end TreeScript
