import TreeScript.Proofs.Session

/-!
# Where an import takes effect

An import follows its name from the directory of the runtime that evaluates it, and makes the module
a namespace of the root scope of that runtime. The scope that the import is evaluated in may lie in
another module: a function of a module has the scope of the module around it, and whoever calls it
evaluates its body. So the name may lead nowhere from where the import stands.
-/

namespace TreeScript

namespace Heap

/-- From a scope the table of another one is reached along the parents, without passing a namespace
of the name. -/
def Reaches (heap : Heap) (scope id : ScopeId) (name : String) : Prop :=
  ∃ nearer farther, heap.chain scope = nearer ++ id :: farther ∧
    ∀ other ∈ nearer, (heap.get other).children.find? name = none

/-- A search whose outcome changes in one place to what is looked for finds it where it was found
before, or where that place is reached before anything else is found. -/
theorem findSome?_eq_iff_of_eq_off {α β : Type} {f g : α → Option β} {place : α} {b : β}
    (off : ∀ x, x ≠ place → g x = f x) (found : g place = some b) (xs : List α) :
    xs.findSome? g = some b ↔ xs.findSome? f = some b ∨
      ∃ nearer farther, xs = nearer ++ place :: farther ∧ ∀ x ∈ nearer, f x = none := by
  induction xs with
  | nil => simp
  | cons x rest ih =>
      by_cases here : x = place
      · subst here
        exact iff_of_true (by simp [found]) (.inr ⟨[], rest, rfl, by simp⟩)
      · have passed : (∃ nearer farther, x :: rest = nearer ++ place :: farther ∧
            ∀ y ∈ nearer, f y = none) ↔ f x = none ∧ ∃ nearer farther,
              rest = nearer ++ place :: farther ∧ ∀ y ∈ nearer, f y = none := by
          constructor
          · rintro ⟨_ | ⟨y, nearer⟩, farther, eq, none⟩
            · exact absurd (List.cons.inj eq).1 here
            · obtain ⟨rfl, rfl⟩ := List.cons.inj eq
              obtain ⟨first, others⟩ := List.forall_mem_cons.mp none
              exact ⟨first, nearer, farther, rfl, others⟩
          · rintro ⟨first, nearer, farther, rfl, others⟩
            exact ⟨x :: nearer, farther, rfl, List.forall_mem_cons.mpr ⟨first, others⟩⟩
        rw [passed, List.findSome?_cons, List.findSome?_cons, off x here]
        cases f x with
        | none => simp [ih]
        | some y => simp

/-- A child scope is found under its name exactly where it was found before, or where the scope that
it is attached to is reached. -/
theorem namespace?_attach_iff (heap : Heap) {id : ScopeId} (name : String) (child scope : ScopeId)
    (h : id < heap.scopes.size) :
    (heap.attach id name child).namespace? scope name = some child ↔
      heap.namespace? scope name = some child ∨ heap.Reaches scope id name := by
  rw [namespace?, chain_attach]
  refine findSome?_eq_iff_of_eq_off (fun other ne => ?_) ?_ _
  · rw [attach, get_modify_of_ne heap _ ne]
  · rw [attach, get_modify_self heap id _ h]
    exact Table.find?_insert_self ..

end Heap

namespace State

/-- The runtime whose root scope a module is follows names from beside the file of the module. -/
theorem Sound.directoryOf_of_loaded {hosted : Bool} {state : State} (sound : state.Sound hosted)
    {runtime : RuntimeId} (inside : runtime < state.runtimes.size) {id : RegistryId} {file : Place}
    (loaded : (file, (state.runtime runtime).root) ∈ (state.registry id).loaded) (files : Files) :
    state.directoryOf files runtime = file.up := by
  obtain ⟨own, lt, root, directory⟩ := sound.loaded id _ loaded
  obtain rfl := sound.root_injective own runtime lt inside root
  simp [directoryOf, directory]

theorem Grows.directoryOf {before after : State} (grows : before.Grows after) (files : Files)
    {runtime : RuntimeId} (inside : runtime < before.runtimes.size) :
    after.directoryOf files runtime = before.directoryOf files runtime := by
  rw [State.directoryOf, (grows.runtime runtime inside).directory, State.directoryOf]

/-- Earlier the runtime had the same directory, and later it keeps what was loaded. -/
theorem FoundBeside.extend {files : Files} {runtime : RuntimeId} {name : String}
    {first before after last : State} {scope : ScopeId}
    (found : FoundBeside files runtime name before scope after) (earlier : first.Grows before)
    (later : after.Grows last) (inside : runtime < first.runtimes.size)
    (inside' : runtime < after.runtimes.size) :
    FoundBeside files runtime name first scope last := by
  intro isLocal
  obtain ⟨place, leads, loaded⟩ := found isLocal
  refine ⟨place, earlier.directoryOf files inside ▸ leads, ?_⟩
  rw [registryOf, (later.runtime runtime inside').registry]
  exact (later.loaded _).subset loaded

end State

/-! ### What an import does -/

/-- The last thing that is done in a part is to make a scope a namespace of another. -/
structure Moment.AttachesLast (settings : Settings) (visit : Moment) (scope : ScopeId)
    (name : String) (child : ScopeId) (last : Moment) : Prop where
  moments : ∃ earlier, visit.inner settings = earlier ++ [last]
  attaches : last.deed = .change (.attach scope name child)

/-- An import finds a module and then makes it a namespace. -/
theorem Rule.moments_importModule {settings : Settings} {depth : Nat} (frames : List Frame)
    {state after : State} {runtime : RuntimeId} {node : Node} {name : String} {x : Object}
    (returns : (importModule runtime node name).run (TreeScript.evaluate depth) settings state =
      (.ok x, after)) :
    ∃ scope middle last earlier,
      (moduleOf runtime name).run (TreeScript.evaluate depth) settings state =
        (.ok (some scope), middle) ∧
      middle.Grows last ∧ x = .scope scope ∧
      after = Change.apply last (.attach (last.runtime runtime).root name scope) ∧
      (importModule runtime node name).moments settings depth frames state =
        earlier ++ [⟨depth, frames, last,
          .change (.attach (last.runtime runtime).root name scope)⟩] := by
  obtain ⟨found, middle, finds, rest⟩ := run_bind_ok returns
  cases found with
  | none => cases rest
  | some scope =>
      obtain ⟨⟨⟩, last, traced, rest⟩ := run_bind_ok rest
      have grows := (trace ("import " ++ name)).run_grows depth settings middle
      rw [traced] at grows
      cases rest
      refine ⟨scope, middle, last,
        (moduleOf runtime name).moments settings depth frames state ++
          (trace ("import " ++ name)).moments settings depth frames middle,
        finds, grows, rfl, rfl, ?_⟩
      rw [List.append_assoc]
      exact (moments_bind finds).trans (congrArg _ (moments_bind traced))

/-- An import that succeeds follows its name from the directory of its runtime, and what it does
last is to make the module a namespace of the root scope of that runtime. -/
theorem Moment.import_attaches {hosted : Bool} {first : Nat} {settings : Settings} {visit : Moment}
    {runtime : RuntimeId} {name : String} {origin : Origin} {context : Context}
    (visits : visit.deed = .visit runtime (.tree (.moduleImport name origin)) context)
    (proper : visit.deed.Proper hosted first visit.frames visit.state) {x : Object} {after : State}
    (returns : evaluate visit.depth runtime (.tree (.moduleImport name origin)) context settings
      visit.state = (.ok x, after)) :
    ∃ scope last, x = .scope scope ∧
      visit.AttachesLast settings (visit.state.runtime runtime).root name scope last ∧
      visit.state.Grows last.state ∧ after = last.nextState ∧
      State.FoundBeside settings.files runtime name visit.state scope after := by
  rw [visits] at proper
  obtain ⟨ready, -⟩ := proper
  obtain ⟨depth, frames, state, deed⟩ := visit
  subst visits
  cases depth with
  | zero => cases congrArg Prod.fst returns
  | succ depth =>
      -- A node is noted before it is evaluated.
      let noted := Change.apply state (.visit runtime (.moduleImport name origin))
      have began : Later hosted state noted := .change ready.sound trivial
      have returns : (importModule runtime (.moduleImport name origin) name).run (evaluate depth)
          settings noted = (.ok x, after) := returns
      obtain ⟨scope, middle, last, earlier, finds, grows, rfl, rfl, moments⟩ :=
        Rule.moments_importModule frames returns
      obtain ⟨later, found⟩ := ((keeps_moduleOf (ready.later began) name).sound
        (discipline_kept hosted first settings) depth).1 _ _ finds
      have grown := began.grows.trans (later.grows.trans grows)
      have attached := grows.trans (Change.apply_grows last
        (.attach (last.runtime runtime).root name scope))
      have inside := Nat.lt_of_lt_of_le ready.runtime_lt (began.trans later).grows.runtimes
      have root := (grown.runtime runtime ready.runtime_lt).root
      refine ⟨scope, _, rfl, ⟨⟨⟨depth, frames, state, .change (.visit ..)⟩ :: earlier,
        congrArg _ moments⟩, ?_⟩, grown, rfl, ?_⟩
      · rw [root]
      · exact (found scope rfl).2.extend began.grows attached ready.runtime_lt inside

namespace Runner

variable {hosted : Bool} {settings : Settings} {depth : Nat} {runner : Runner}
variable {place : Option Place} {program : Node} {state after : State} {visit : Moment}
variable {runtime : RuntimeId} {name : String} {origin : Origin} {context : Context} {x : Object}

/-- Let an import succeed. Its name is followed from the directory of the runtime that evaluates the
import: the runtime of a module has that of the file of the module, and one that was there before
the run still has the one from then. The imported scope becomes a namespace of the root scope of
that runtime. So the name leads there from where the import stands exactly when it had led there
before, or that root scope lies around the import with no nearer namespace of the name. And then the
members of the name are those of the imported scope. -/
theorem import_reaches_iff (session : Session hosted state) (valid : runner.Valid hosted state)
    (mem : visit ∈ runner.moments settings depth place program state)
    (visits : visit.deed = .visit runtime (.tree (.moduleImport name origin)) context)
    (returns : evaluate visit.depth runtime (.tree (.moduleImport name origin)) context settings
      visit.state = (.ok x, after)) :
    ∃ scope last, x = .scope scope ∧
      visit.AttachesLast settings (visit.state.runtime runtime).root name scope last ∧
      after = last.nextState ∧
      State.FoundBeside settings.files runtime name visit.state scope after ∧
      (∀ id file, (file, (visit.state.runtime runtime).root) ∈ (visit.state.registry id).loaded →
        visit.state.directoryOf settings.files runtime = file.up) ∧
      (runtime < state.runtimes.size →
        visit.state.directoryOf settings.files runtime =
          state.directoryOf settings.files runtime) ∧
      (after.heap.namespace? context.scope name = some scope ↔
        last.state.heap.namespace? context.scope name = some scope ∨
          last.state.heap.Reaches context.scope (visit.state.runtime runtime).root name) ∧
      (after.heap.namespace? context.scope name = some scope → ∀ member : String,
        '.' ∉ member.toList → after.heap.function? context.scope (name ++ "." ++ member) = none →
        after.heap.resolve context.scope (name ++ "." ++ member) =
          match (after.heap.get scope).functions.find? member with
          | some entry => .ok entry
          | none => .error (.unknownFunction (name ++ "." ++ member))) := by
  have run := run_sound settings session.sound valid depth place program
  have proper := run.proper visit mem
  have sound := run.sound visit mem
  obtain ⟨scope, last, rfl, attaches, grows, rfl, found⟩ :=
    Moment.import_attaches visits proper returns
  rw [visits] at proper
  obtain ⟨ready, -⟩ := proper
  have grown := (runner.moments_linked settings depth place program state).grows.2 visit mem
  have inside : (visit.state.runtime runtime).root < last.state.heap.scopes.size :=
    Nat.lt_of_lt_of_le (sound.root_lt runtime ready.runtime_lt) grows.heap.size
  have heap : last.nextState.heap =
      last.state.heap.attach (visit.state.runtime runtime).root name scope := by
    rw [Moment.nextState, attaches.attaches]
    rfl
  refine ⟨scope, last, rfl, attaches, rfl, found, ?_, ?_, ?_, ?_⟩
  · exact fun id file loaded => sound.directoryOf_of_loaded ready.runtime_lt loaded settings.files
  · exact fun earlier => grown.1.directoryOf settings.files earlier
  · rw [heap]
    exact last.state.heap.namespace?_attach_iff name scope context.scope inside
  · exact fun known member plain free => Heap.resolve_member known plain free

end Runner

/-- A file with a function `f` that imports another file and calls a function of that. -/
def Files.importing : Files := .ofLines [
  ("lib.yaml", [
    "type: FunctionCall",
    "name: def",
    "parameters:",
    "- type: MemoryLiteral",
    "  value: f",
    "yieldFunction:",
    "  type: ParameterBlock",
    "  body:",
    "  - type: ModuleImport",
    "    name: ./util",
    "  - type: FunctionCall",
    "    name: ./util.answer"]),
  ("util.yaml", [
    "type: FunctionCall",
    "name: def",
    "parameters:",
    "- type: MemoryLiteral",
    "  value: answer",
    "yieldFunction:",
    "  type: NumberLiteral",
    "  value: 42"])]

/-- Whether a moment is an import of `./util` that succeeds while just `lib.yaml` is loaded. It is
evaluated in the scope of that module, which binds `f`, and the name leads nowhere after it. -/
def Moment.isLostImport (visit : Moment) : Bool :=
  match visit.deed with
  | .visit 0 (.tree (.moduleImport "./util" origin)) context =>
      match evaluate visit.depth 0 (.tree (.moduleImport "./util" origin)) context
          (.quiet .importing) visit.state with
      | (.ok _, after) =>
          (visit.state.registry 0).loaded == [(⟨.origin, ["lib.yaml"]⟩, context.scope)] &&
            visit.state.heap.hasLocal context.scope "f" &&
            after.heap.namespace? context.scope "./util" == none
      | _ => false
  | _ => false

theorem Moment.exists_of_isLostImport {visit : Moment} (h : visit.isLostImport = true) :
    ∃ origin context x after,
      visit.deed = .visit 0 (.tree (.moduleImport "./util" origin)) context ∧
      evaluate visit.depth 0 (.tree (.moduleImport "./util" origin)) context (.quiet .importing)
        visit.state = (.ok x, after) ∧
      (⟨.origin, ["lib.yaml"]⟩, context.scope) ∈ (visit.state.registry 0).loaded ∧
      visit.state.heap.hasLocal context.scope "f" = true ∧
      after.heap.namespace? context.scope "./util" = none := by
  unfold isLostImport at h
  split at h
  · rename_i origin context visits
    split at h
    · rename_i x after returns
      simp only [Bool.and_eq_true, beq_iff_eq] at h
      obtain ⟨⟨loaded, bound⟩, lost⟩ := h
      exact ⟨origin, context, x, after, visits, returns, by simp [loaded], bound, lost⟩
    · cases h
  · cases h

/-- The cause of the error that ended an evaluation. -/
def causeOf? : Option Interrupt → Option Cause
  | some (.error error) => some error.cause
  | _ => none

theorem exists_error_of_causeOf? {α : Type} {result : Except Interrupt α} {cause : Cause}
    (h : causeOf? (interruptOf? result) = some cause) :
    ∃ error, result = .error (.error error) ∧ error.cause = cause := by
  cases result with
  | ok a => cases h
  | error reason =>
      cases reason with
      | error error => exact ⟨error, rfl, Option.some.inj h⟩
      | failure _ | tooDeep => cases h

set_option maxRecDepth 4000 in
theorem Runner.exists_lostImport :
    ∃ visit ∈ Runner.main.moments (.quiet .importing) 12 none .callOfModule State.fresh,
      visit.isLostImport = true :=
  List.any_eq_true.mp (by decide +kernel)

/-- The function `f` of `lib.yaml` imports `./util` for the program that calls it. -/
theorem Runner.import_reaches_iff_lib :
    ∃ (visit : Moment) (context : Context) (scope : ScopeId) (last : Moment),
      visit ∈ Runner.main.moments (.quiet .importing) 12 none .callOfModule State.fresh ∧
      visit.AttachesLast (.quiet .importing) (visit.state.runtime 0).root "./util" scope last ∧
      visit.state.directoryOf .importing 0 = .origin ∧
      (last.nextState.heap.namespace? context.scope "./util" = some scope ↔
        last.state.heap.namespace? context.scope "./util" = some scope ∨
          last.state.heap.Reaches context.scope (visit.state.runtime 0).root "./util") := by
  obtain ⟨visit, mem, check⟩ := exists_lostImport
  obtain ⟨origin, context, x, after, visits, returns, -⟩ := Moment.exists_of_isLostImport check
  obtain ⟨scope, last, -, attaches, rfl, -, -, stays, iff, -⟩ := Runner.import_reaches_iff
    (Session.fresh false) (Runner.main_valid false) mem visits returns
  exact ⟨visit, context, scope, last, mem, attaches, stays (by decide), iff⟩

set_option maxRecDepth 4000 in
/-- The function of `lib.yaml` is evaluated for the program that calls it, in the scope of the
module. The import in it succeeds, but the name leads nowhere from that scope, and so the call after
it is an error. -/
theorem Runner.import_in_module_is_lost :
    ∃ (visit : Moment) (origin : Origin) (context : Context) (scope : ScopeId) (after : State)
        (error : Error),
      visit ∈ Runner.main.moments (.quiet .importing) 12 none .callOfModule State.fresh ∧
      visit.deed = .visit 0 (.tree (.moduleImport "./util" origin)) context ∧
      evaluate visit.depth 0 (.tree (.moduleImport "./util" origin)) context (.quiet .importing)
        visit.state = (.ok (.scope scope), after) ∧
      (⟨.origin, ["lib.yaml"]⟩, context.scope) ∈ (visit.state.registry 0).loaded ∧
      visit.state.heap.hasLocal context.scope "f" = true ∧
      after.heap.namespace? context.scope "./util" = none ∧
      (Runner.main.evaluateProgram 12 none .callOfModule (.quiet .importing) State.fresh).1 =
        .error (.error error) ∧
      error.cause = .unknownNamespace "./util" := by
  obtain ⟨visit, mem, check⟩ := exists_lostImport
  obtain ⟨origin, context, x, after, visits, returns, loaded, bound, lost⟩ :=
    Moment.exists_of_isLostImport check
  have proper := (run_sound (.quiet .importing) (Session.fresh false).sound
    (Runner.main_valid false) 12 none .callOfModule).proper visit mem
  obtain ⟨scope, last, rfl, -⟩ := Moment.import_attaches visits proper returns
  have ends : causeOf? (interruptOf? (Runner.main.evaluateProgram 12 none .callOfModule
      (.quiet .importing) State.fresh).1) = some (.unknownNamespace "./util") := by decide +kernel
  obtain ⟨error, result, cause⟩ := exists_error_of_causeOf? ends
  exact ⟨visit, origin, context, scope, after, error, mem, visits, returns, loaded, bound, lost,
    result, cause⟩

end TreeScript
