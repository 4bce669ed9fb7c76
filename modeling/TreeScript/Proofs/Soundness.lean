import TreeScript.Proofs.BuiltinDiscipline
import TreeScript.Runner

/-!
# Soundness of evaluation

Every rule keeps the discipline, so every moment of every evaluation is proper and every result is
valid. `Runner.run_sound` says this of a program that a runner evaluates in a sound
state.
-/

namespace TreeScript

open Rule

variable {hosted : Bool} {first : Nat} {settings : Settings} {frames : List Frame} {state : State}
variable {runtime : RuntimeId} {context : Context}

/-! ### Imports -/

/-- What a document that cannot be read ends an evaluation with is no error of the language. -/
theorem LoadFault.interrupt?_ne_error {fault : LoadFault} {reason : Interrupt}
    (h : fault.interrupt? = some reason) (error : Error) : reason ≠ .error error := by
  rcases LoadFault.eq_of_interrupt? h with ⟨message, rfl⟩ | rfl <;> simp

theorem Blueprint.keeps_rule (sound : state.Sound hosted) (hosts : hosted = true)
    {blueprint : Blueprint} (valid : blueprint.Valid (state.extent hosted)) :
    blueprint.rule.Keeps (discipline hosted first) settings frames state fun scope after =>
      Later hosted state after ∧ scope < after.heap.scopes.size := by
  simp only [Blueprint.rule, keeps_bind, keeps_inspect, keeps_perform, keeps_pure]
  have safe : Change.Safe hosted state (.build blueprint) := ⟨hosts, valid⟩
  exact ⟨discipline_change sound safe trivial, .change sound safe,
    (blueprint.build_sound hosts sound.heap valid).2⟩

theorem Recipe.keeps_rule (sound : state.Sound hosted) (hosts : hosted = true) (name : String)
    {recipe : Recipe} (valid : recipe.Valid (state.extent hosted)) :
    (recipe.rule name).Keeps (discipline hosted first) settings frames state fun scope after =>
      Later hosted state after ∧ scope < after.heap.scopes.size := by
  cases recipe with
  | scope blueprint => exact Blueprint.keeps_rule sound hosts valid
  | existing id => exact ⟨.refl sound, valid⟩
  | other kind => exact ⟨sound, by simp⟩
  | crash message => exact ⟨sound, by simp⟩

theorem keeps_registeredModule (sound : state.Sound hosted) (id : RegistryId) (name : String) :
    (registeredModule id name).Keeps (discipline hosted first) settings frames state
      fun found after => Later hosted state after ∧
        ∀ scope, found = some scope → scope < after.heap.scopes.size := by
  simp only [registeredModule, keeps_bind, keeps_inspect]
  cases found : (state.registry id).modules.find? name with
  | none => exact ⟨.refl sound, by simp⟩
  | some module =>
      obtain ⟨hosts, valid⟩ := sound.modules id _ (Table.mem_of_find? found)
      cases module with
      | ready scope => exact ⟨.refl sound, by rintro _ ⟨⟩; exact valid⟩
      | pending factory =>
          simp only [keeps_bind, keeps_inspect, keeps_perform, keeps_pure]
          have ran : Later hosted state (state.record (.built factory.label)) :=
            .change (c := .runFactory factory.label) sound trivial
          refine ⟨discipline_change sound trivial trivial, ?_⟩
          refine (Recipe.keeps_rule ran.sound hosts name
            ((valid _).mono ran.within)).mono fun scope after outcome => ?_
          obtain ⟨later, inside⟩ := outcome
          have safe : Change.Safe hosted after (.settle id name scope) := ⟨hosts, inside⟩
          refine ⟨discipline_change later.sound safe trivial,
            (ran.trans later).trans (.change later.sound safe), ?_⟩
          rintro _ ⟨⟩
          exact inside

theorem keeps_marked (sound : state.Sound hosted) (node : Node) :
    (marked node).Keeps (discipline hosted first) settings frames state fun _ after =>
      Later hosted state after := by
  simp only [marked, keeps_bind, keeps_inspect, keeps_perform, keeps_pure]
  exact ⟨discipline_change sound trivial trivial, .change sound trivial⟩

theorem keeps_evaluateFile {scope : ScopeId}
    (ready : Ready hosted first frames state runtime { scope }) (place : Place) (program : Node) :
    (evaluateFile runtime place program scope).Keeps (discipline hosted first) settings frames state
      ((discipline hosted first).gives state) := by
  simp only [evaluateFile, keeps_bind, keeps_perform, keeps_evaluate, keeps_pure]
  have began : Later hosted state (Change.apply state (.begin place)) := .change ready.sound trivial
  refine ⟨discipline_change ready.sound trivial trivial, (ready.later began).visitNode program, ?_⟩
  intro x after given
  have finished : Later hosted after (Change.apply after (.finish place)) :=
    .change given.1.sound trivial
  exact ⟨discipline_change given.1.sound trivial trivial,
    (began.trans given.1).trans finished, given.2.mono finished.within⟩

/-- A module is evaluated in a new runtime, which imports from beside its file. -/
theorem keeps_evaluateModule (ready : Ready hosted first frames state runtime context)
    (place : Place) (program : Node) :
    (evaluateModule runtime place program).Keeps (discipline hosted first) settings frames state
      fun scope after => Later hosted state after ∧ scope < after.heap.scopes.size ∧
        (place, scope) ∈ (after.registryOf runtime).loaded := by
  simp only [evaluateModule, keeps_bind, keeps_inspect, keeps_perform, keeps_pure, keeps_inside]
  refine (keeps_marked ready.sound program).mono fun program before marked => ?_
  have ready' := ready.later marked
  have safe : Change.Safe hosted before (.addRuntime runtime place.up) := ready'.runtime_lt
  have added := Later.change ready'.sound safe
  refine ⟨discipline_change ready'.sound safe trivial, ?_⟩
  have new := Change.runtime_addRuntime before runtime place.up
  have size := Change.size_addRuntime before runtime place.up
  generalize Change.apply before (.addRuntime runtime place.up) = start at added size new ⊢
  have inside : before.runtimes.size < start.runtimes.size := by omega
  have module : start.IsModule place (start.runtime before.runtimes.size).root :=
    ⟨_, inside, rfl, by rw [new]⟩
  have root := added.sound.root_lt _ inside
  -- While the file is being loaded, the new runtime evaluates it in its root scope.
  have entered := Later.enter added.sound (.loading runtime place)
  have proper : Frame.Proper hosted frames start (.loading runtime place) :=
    (ready'.later added).runtime_lt
  refine ⟨⟨⟨added.sound, proper⟩, fun _ h => by cases h⟩, ?_⟩
  have readyModule : Ready hosted first (.loading runtime place :: frames)
      (Frame.enter start (.loading runtime place)) before.runtimes.size
      { scope := (start.runtime before.runtimes.size).root } :=
    ⟨entered.sound, (ready'.later added).first_le, inside, ⟨root, by simp⟩, by simp⟩
  refine (keeps_evaluateFile readyModule place program).mono fun x after given => ?_
  have left := Later.leave given.1.sound (.loading runtime place)
  have later := (entered.trans given.1).trans left
  have safe' : Change.Safe hosted _
      (.keep runtime place (start.runtime before.runtimes.size).root) := module.grows later.grows
  have kept := Later.change left.sound safe'
  have young : ∃ id, first ≤ id ∧ id < (Frame.leave after (.loading runtime place)).runtimes.size ∧
      ((Frame.leave after (.loading runtime place)).runtime id).root =
        (start.runtime before.runtimes.size).root :=
    ⟨_, ready'.first_le, Nat.lt_of_lt_of_le inside later.grows.runtimes,
      (later.grows.runtime _ inside).root⟩
  refine ⟨discipline_change left.sound safe' young,
    ((marked.trans added).trans later).trans kept,
    Nat.lt_of_lt_of_le root (later.trans kept).grows.heap.size, ?_⟩
  rw [Change.apply, State.registryOf_modifyRegistry]
  · exact List.mem_append_right _ (List.mem_singleton_self _)
  · exact left.sound.registry_lt runtime
      (Nat.lt_of_lt_of_le (ready'.later added).runtime_lt later.grows.runtimes)

theorem keeps_moduleOfFile (ready : Ready hosted first frames state runtime context)
    (place : Place) :
    (moduleOfFile runtime place).Keeps (discipline hosted first) settings frames state
      fun scope after => Later hosted state after ∧ scope < after.heap.scopes.size ∧
        (place, scope) ∈ (after.registryOf runtime).loaded := by
  simp only [moduleOfFile, keeps_bind, keeps_inspect]
  cases loaded : (state.registryOf runtime).loaded? place with
  | some scope =>
      obtain ⟨entry, found, rfl⟩ := Option.map_eq_some_iff.mp loaded
      have mem := List.mem_of_find?_eq_some found
      obtain ⟨id, inside, root, -⟩ := ready.sound.loaded _ entry mem
      obtain rfl : entry.1 = place := by simpa using List.find?_some found
      exact ⟨.refl ready.sound, root ▸ ready.sound.root_lt id inside, mem⟩
  | none =>
      simp only [keeps_bind, keeps_inspect]
      split
      · exact ready.fail _
      · simp only [keeps_bind, keeps_inspect]
        split
        · split
          · rename_i h
            exact ⟨ready.sound, fun _ => LoadFault.interrupt?_ne_error h⟩
          · exact ready.fail _
        · exact keeps_evaluateModule ready place _

/-- The scope is the module of the file that a name leads to from the directory of the runtime, if
the name leads to a file at all. -/
def State.FoundBeside (files : Files) (runtime : RuntimeId) (name : String) (before : State)
    (scope : ScopeId) (after : State) : Prop :=
  isLocalName name = true → ∃ place,
    files.moduleAt? (before.directoryOf files runtime) name = .ok (some place) ∧
      (place, scope) ∈ (after.registryOf runtime).loaded

theorem keeps_moduleOf (ready : Ready hosted first frames state runtime context) (name : String) :
    (moduleOf runtime name).Keeps (discipline hosted first) settings frames state fun found after =>
      Later hosted state after ∧ ∀ scope, found = some scope → scope < after.heap.scopes.size ∧
        State.FoundBeside settings.files runtime name state scope after := by
  unfold moduleOf
  split
  · rw [map_eq_pure_bind]
    simp only [localModule, keeps_bind, keeps_inspect, keeps_pure]
    split
    · exact ready.failure _
    · exact ready.fail _
    · rename_i place found
      refine (keeps_moduleOfFile ready _).mono fun scope after outcome => ?_
      obtain ⟨later, inside, loaded⟩ := outcome
      refine ⟨later, ?_⟩
      rintro _ ⟨⟩
      exact ⟨inside, fun _ => ⟨place, found, loaded⟩⟩
  · rename_i global
    simp only [keeps_bind, keeps_inspect]
    refine (keeps_registeredModule ready.sound _ name).mono fun found after outcome => ?_
    obtain ⟨later, inside⟩ := outcome
    exact ⟨later, fun scope h => ⟨inside scope h, fun isLocal => absurd isLocal global⟩⟩

theorem keeps_importModule (ready : Ready hosted first frames state runtime context) (node : Node)
    (name : String) :
    (importModule runtime node name).Keeps (discipline hosted first) settings frames state
      ((discipline hosted first).gives state) := by
  simp only [importModule, keeps_bind]
  refine (keeps_moduleOf ready name).mono fun found after outcome => ?_
  obtain ⟨later, inside⟩ := outcome
  have ready' := ready.later later
  cases found with
  | none =>
      exact ⟨ready'.sound, ready'.runtime_lt, fun invocation h =>
        ⟨ready'.owner invocation h, .inr ⟨name, rfl⟩⟩⟩
  | some scope =>
      simp only [keeps_bind, keeps_inspect, keeps_perform, keeps_pure]
      refine (keeps_trace later.sound _).mono fun _ last traced => ?_
      have inside' : scope < last.heap.scopes.size :=
        Nat.lt_of_lt_of_le (inside scope rfl).1 traced.grows.heap.size
      have safe : Change.Safe hosted last
          (.attach (last.runtime runtime).root name scope) := inside'
      have attached := Later.change traced.sound safe
      exact ⟨discipline_change traced.sound safe trivial, (later.trans traced).trans attached,
        Nat.lt_of_lt_of_le inside' attached.grows.heap.size⟩

/-! ### Calls and nodes -/

theorem Procedure.keeps_rule (sound : state.Sound hosted) (hosts : hosted = true)
    (valid : context.Valid (state.extent hosted)) {arguments : List Object}
    (given : ∀ x ∈ arguments, x.Valid (state.extent hosted)) (yielded : Node)
    {procedure : Procedure} (proper : procedure.Valid (state.extent hosted)) :
    (procedure.rule context arguments yielded).Keeps (discipline hosted first) settings frames state
      ((discipline hosted first).gives state) := by
  cases procedure with
  | argumentCount => exact ⟨.refl sound, trivial⟩
  | constant result => exact ⟨.refl sound, proper⟩
  | argument index =>
      refine ⟨.refl sound, ?_⟩
      rw [List.getD_eq_getElem?_getD]
      cases h : arguments[index]? with
      | none => trivial
      | some x => exact given x (List.mem_of_getElem? h)
  | currentScope => exact ⟨.refl sound, valid.scope⟩
  | yieldTree =>
      refine ⟨.refl sound, ?_⟩
      cases yielded with
      | absent => trivial
      | _ => exact .inl hosts
  | describeContext => exact ⟨.refl sound, trivial⟩
  | crash message => exact ⟨sound, by simp⟩
  | refuse kind message => exact ⟨sound, by simp [hosts]⟩

theorem keeps_callEntry (ready : Ready hosted first frames state runtime context) (name : String)
    (parameters : List Node) (yielded : Node) {walker : RuntimeId} {node : Node}
    (frame : frames.head? = some (.call walker node)) {entry : Entry}
    (valid : entry.Valid (state.extent hosted)) :
    (callEntry runtime context name parameters yielded entry).Keeps (discipline hosted first)
      settings frames state ((discipline hosted first).gives state) := by
  cases entry with
  | builtin owner builtin =>
      simp only [callEntry, keeps_bind, keeps_inside]
      refine (keeps_all ready parameters).mono fun arguments middle outcome => ?_
      obtain ⟨later, given⟩ := outcome
      refine (keeps_trace later.sound _).mono fun _ after traced => ?_
      have later' := later.trans traced
      have proper : Invocation.Valid hosted after ⟨builtin, owner, context, arguments, yielded⟩ :=
        ⟨Nat.lt_of_lt_of_le valid later'.grows.runtimes, ready.context.mono later'.within,
          fun x h => (given x h).mono traced.within⟩
      refine ⟨⟨⟨traced.sound, proper, walker, node, frame⟩, by rintro _ ⟨⟩; rfl⟩, ?_⟩
      exact (Invocation.keeps_rule traced.sound (ready.later later').first_le proper).mono
        fun x final last => ⟨later'.trans last.1, last.2⟩
  | host label procedure =>
      simp only [callEntry, keeps_bind]
      refine (keeps_all ready parameters).mono fun arguments middle outcome => ?_
      obtain ⟨later, given⟩ := outcome
      refine (keeps_trace later.sound _).mono fun _ after traced => ?_
      have later' := later.trans traced
      exact (Procedure.keeps_rule traced.sound valid.1 (ready.context.mono later'.within)
        (fun x h => (given x h).mono traced.within) yielded
        (valid.2.mono later'.within)).mono fun x final last => ⟨later'.trans last.1, last.2⟩
  | custom closure body =>
      simp only [callEntry, keeps_bind, keeps_evaluate]
      have arguments : (customArguments runtime context parameters).Keeps (discipline hosted first)
          settings frames state fun xs after =>
            Later hosted state after ∧ ∀ x ∈ xs, x.Valid (after.extent hosted) := by
        unfold customArguments
        split
        · exact ⟨.refl ready.sound, ready.context.parameters⟩
        · exact keeps_all ready parameters
      refine arguments.mono fun arguments middle outcome => ?_
      obtain ⟨later, given⟩ := outcome
      refine (keeps_trace later.sound _).mono fun _ after traced => ?_
      have later' := later.trans traced
      have inner : Context.Valid (after.extent hosted)
          { scope := closure, parameters := arguments, yielded } :=
        ⟨Nat.lt_of_lt_of_le valid.1 later'.grows.heap.size,
          fun x h => (given x h).mono traced.within⟩
      have body' : body.Evaluable (after.extent hosted) :=
        Object.Evaluable.mono valid.2 later'.within
      exact ⟨((ready.later later').inContext inner).visit body', fun x final last =>
        ⟨later'.trans last.1, last.2⟩⟩
  | inert datum => exact ready.fail _

theorem keeps_resolveAndCall (ready : Ready hosted first frames state runtime context)
    (name : String) (parameters : List Node) (yielded : Node) {walker : RuntimeId} {node : Node}
    (frame : frames.head? = some (.call walker node)) :
    (resolveAndCall runtime context name parameters yielded).Keeps (discipline hosted first)
      settings frames state ((discipline hosted first).gives state) := by
  simp only [resolveAndCall, keeps_bind, keeps_inspect]
  split
  · exact ready.fail _
  · rename_i found
    exact keeps_callEntry ready name parameters yielded frame (ready.sound.heap.resolve found)

theorem keeps_evaluateBlock (ready : Ready hosted first frames state runtime context)
    (body : List Node) :
    (evaluateBlock runtime context body).Keeps (discipline hosted first) settings frames state
      ((discipline hosted first).gives state) := by
  simp only [evaluateBlock, keeps_bind, keeps_inspect, keeps_perform]
  have safe : Change.Safe hosted state (.openScope context.scope) := ready.context.scope
  have opened := Later.change ready.sound safe
  have inside : state.heap.scopes.size <
      (Change.apply state (.openScope context.scope)).heap.scopes.size := by
    simp [Change.apply, State.allocate]
  refine ⟨discipline_change ready.sound safe trivial, ?_⟩
  exact (keeps_blockIn (ready.later opened) inside body).mono fun x after given =>
    ⟨opened.trans given.1, given.2⟩

theorem keeps_nodeRule (ready : Ready hosted first frames state runtime context) (node : Node) :
    (nodeRule runtime context node).Keeps (discipline hosted first) settings frames state
      ((discipline hosted first).gives state) := by
  cases node with
  | absent => exact ⟨.refl ready.sound, trivial⟩
  | list mark items => exact ⟨.refl ready.sound, .inr ⟨mark, items, rfl⟩⟩
  | number n _ => exact ⟨.refl ready.sound, trivial⟩
  | text s _ => exact ⟨.refl ready.sound, trivial⟩
  | boolean b _ => exact ⟨.refl ready.sound, trivial⟩
  | memory name _ => exact ⟨.refl ready.sound, ready.context.scope, fun _ => rfl⟩
  | call name parameters yielded origin =>
      let frame : Frame := .call runtime (.call name parameters yielded origin)
      have entered := Later.enter ready.sound frame
      have ready' : Ready hosted first (frame :: frames) (frame.enter state) runtime context :=
        { ready.later entered with owner := by simp [frame] }
      refine ⟨⟨⟨ready.sound, ready.runtime_lt, rfl⟩, fun _ h => by cases h⟩, ?_⟩
      refine (keeps_resolveAndCall ready' name parameters yielded rfl).mono fun x after given => ?_
      have left := Later.leave given.1.sound frame
      exact ⟨(entered.trans given.1).trans left, given.2.mono left.within⟩
  | block body _ => exact keeps_evaluateBlock ready body
  | program body _ =>
      simp only [nodeRule, keeps_bind, keeps_pure]
      exact (keeps_each ready body).mono fun _ after later => ⟨later, trivial⟩
  | group body _ => exact keeps_last ready body trivial
  | moduleImport name _ => exact keeps_importModule ready _ name

/-- The rule of every part that may be visited keeps the discipline. -/
theorem discipline_kept (hosted : Bool) (first : Nat) (settings : Settings) :
    (discipline hosted first).Kept settings := by
  rintro runtime object context frames state ⟨ready, valid⟩
  unfold evaluateStep
  split
  · rename_i node
    split
    · simp only [evaluateNode, keeps_bind, keeps_perform]
      have visited : Later hosted state (Change.apply state (.visit runtime node)) :=
        .change ready.sound trivial
      refine ⟨discipline_change ready.sound trivial trivial, ?_⟩
      exact (keeps_nodeRule (ready.later visited) node).mono fun x after given =>
        ⟨visited.trans given.1, given.2⟩
    · rename_i h
      exact ⟨.refl ready.sound, valid.resolve_left h⟩
  · rename_i other
    refine ⟨.refl ready.sound, valid.resolve_left fun h => ?_⟩
    cases object with
    | tree node => exact other node rfl
    | _ => cases h

/-! ### Programs -/

/-- A runtime that is not that of a loaded file. -/
structure State.MadeByHost (state : State) (id : RuntimeId) : Prop where
  runtime_lt : id < state.runtimes.size
  root_ne : ∀ i, ∀ entry ∈ (state.registry i).loaded, entry.2 ≠ (state.runtime id).root

/-- A runner runs in a runtime of the host, and without a host of its own it registers no
modules. -/
structure Runner.Valid (hosted : Bool) (state : State) (runner : Runner) : Prop where
  runtime : state.MadeByHost runner.runtime
  modules : ∀ entry ∈ runner.modules,
    hosted = true ∧ entry.2.Valid (state.extent hosted)

theorem Runner.keeps_registerAll (sound : state.Sound hosted) (registry : RegistryId)
    {modules : List (String × Source)}
    (valid : ∀ entry ∈ modules, hosted = true ∧ entry.2.Valid (state.extent hosted)) :
    (registerAll registry modules).Keeps (discipline hosted first) settings frames state
      fun _ after => Later hosted state after := by
  induction modules generalizing state with
  | nil => exact .refl sound
  | cons entry rest ih =>
      obtain ⟨name, source⟩ := entry
      obtain ⟨first, others⟩ := List.forall_mem_cons.mp valid
      simp only [registerAll, keeps_bind, keeps_inspect]
      split
      · exact ⟨sound, by simp⟩
      · simp only [keeps_bind, keeps_perform]
        have safe : Change.Safe hosted state (.register registry name source) := first
        have registered := Later.change sound safe
        refine ⟨discipline_change sound safe trivial, ?_⟩
        exact (ih registered.sound fun entry h =>
          ⟨(others entry h).1, (others entry h).2.mono registered.within⟩).mono
          fun _ after later => registered.trans later

theorem Runner.keeps_programRule (sound : state.Sound hosted) {runner : Runner}
    (valid : runner.Valid hosted state) (place : Option Place) (program : Node) :
    (runner.programRule place program).Keeps (discipline hosted state.runtimes.size) settings []
      state ((discipline hosted state.runtimes.size).gives state) := by
  simp only [programRule, keeps_bind, keeps_inspect]
  refine (keeps_registerAll sound _ valid.modules).mono fun _ middle registered => ?_
  refine (keeps_marked registered.sound program).mono fun program after marked => ?_
  have later := registered.trans marked
  have inside := Nat.lt_of_lt_of_le valid.runtime.runtime_lt later.grows.runtimes
  have ready : Ready hosted state.runtimes.size [] after runner.runtime
      { scope := (after.runtime runner.runtime).root } :=
    ⟨later.sound, later.grows.runtimes, inside, ⟨later.sound.root_lt _ inside, by simp⟩, by simp⟩
  cases place with
  | none => exact ⟨ready.visitNode program, fun x last given => ⟨later.trans given.1, given.2⟩⟩
  | some place =>
      exact (keeps_evaluateFile ready place program).mono fun x last given =>
        ⟨later.trans given.1, given.2⟩

/-- A proper moment leaves a sound state. -/
theorem Moment.sound_next {first : Nat} {moment : Moment} (sound : moment.state.Sound hosted)
    (proper : moment.deed.Proper hosted first moment.frames moment.state) :
    moment.nextState.Sound hosted := by
  obtain ⟨depth, frames, state, deed⟩ := moment
  cases deed with
  | visit runtime object context => exact sound
  | change c => exact proper.2.1.sound sound
  | enter frame => exact sound.enter frame
  | leave frame => exact sound.leave frame
  | fail runtime cause node => exact sound.reportError runtime cause
  | halt reason => exact sound

namespace Runner

def moments (settings : Settings) (depth : Nat) (runner : Runner) (place : Option Place)
    (program : Node) (state : State) : List Moment :=
  (runner.programRule place program).moments settings depth [] state

theorem moments_linked (settings : Settings) (depth : Nat) (runner : Runner)
    (place : Option Place) (program : Node) (state : State) :
    Linked [] state (runner.moments settings depth place program state) []
      (runner.evaluateProgram depth place program settings state).2 :=
  Rule.moments_linked settings depth _ [] state

/-- What is true of a run in a sound state: each of its moments is proper, the state is sound at
each of them and at the end, the result is valid if there is one, and whenever a builtin is entered,
the moments of its rule come next. -/
structure SoundRun (hosted : Bool) (settings : Settings) (depth : Nat) (runner : Runner)
    (place : Option Place) (program : Node) (state : State) : Prop where
  proper : ∀ m ∈ runner.moments settings depth place program state,
    m.deed.Proper hosted state.runtimes.size m.frames m.state
  sound : ∀ m ∈ runner.moments settings depth place program state, m.state.Sound hosted
  final : (runner.evaluateProgram depth place program settings state).2.Sound hosted
  result : ∀ x after, runner.evaluateProgram depth place program settings state = (.ok x, after) →
    x.Valid (after.extent hosted)
  builtins : ∀ m ∈ runner.moments settings depth place program state, ∀ invocation,
    m.deed = .enter (.builtin invocation) → ∃ before after,
      runner.moments settings depth place program state = before ++ m ::
        (invocation.rule.moments settings m.depth (.builtin invocation :: m.frames) m.state ++
          after)

theorem run_sound (settings : Settings) (sound : state.Sound hosted) {runner : Runner}
    (valid : runner.Valid hosted state) (depth : Nat) (place : Option Place) (program : Node) :
    runner.SoundRun hosted settings depth place program state := by
  have kept := discipline_kept hosted state.runtimes.size settings
  have keeps : (runner.programRule place program).Keeps (discipline hosted state.runtimes.size)
      settings [] state _ := keeps_programRule sound valid place program
  obtain ⟨result, proper⟩ := keeps.sound kept depth
  obtain ⟨final, middle⟩ := (runner.moments_linked settings depth place program state).invariant
    (P := fun _ state => state.Sound hosted)
    (fun m mem sound => Moment.sound_next sound (proper m mem)) sound
  refine ⟨proper, middle, final, fun x after h => (result x after h).2, fun m mem inv enters => ?_⟩
  obtain ⟨β, body, before, after, encloses, eq⟩ := keeps.enclosed kept depth m mem _ enters
  cases encloses inv rfl
  exact ⟨before, after, eq⟩

end Runner

end TreeScript
