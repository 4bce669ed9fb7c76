import TreeScript.Proofs.Courses

/-!
# Courses of loading

A file is loaded within a frame of its own. While the frame is open its place is among those that
are being loaded, and when the program of the file has been evaluated to its end the scope is kept.
A place that is kept or being loaded is never entered again. So loading a file is a course as well,
whether its program is evaluated to the end or not, and with that the evaluation of every part is.
-/

namespace TreeScript

open Rule

/-! ### Loading a file -/

namespace Registry

variable {registry : Registry} {place : Place}

theorem Orderly.begin (orderly : registry.Orderly) (absent : registry.loaded? place = none)
    (idle : place ∉ registry.loading) : (registry.begin place).Orderly where
  distinct := List.nodup_cons.mpr ⟨idle, orderly.distinct⟩
  apart other mem := by
    rcases List.mem_cons.mp mem with rfl | mem
    · exact absent
    · exact orderly.apart other mem

/-- When a file that began to be loaded is finished, the others that are being loaded are left. -/
theorem loading_finish {rest : List Place} (loading : registry.loading = place :: rest)
    (idle : place ∉ rest) : (registry.finish place).loading = rest := by
  have others (other : Place) (mem : other ∈ rest) : (other != place) = true := by
    rw [bne_iff_ne]
    rintro rfl
    exact idle mem
  simp only [finish, loading, List.filter_cons, bne_self_eq_false, Bool.false_eq_true, if_false]
  exact List.filter_eq_self.mpr others

theorem Orderly.finish (orderly : registry.Orderly) {rest : List Place}
    (loading : registry.loading = place :: rest) : (registry.finish place).Orderly := by
  have distinct := orderly.distinct
  rw [loading, List.nodup_cons] at distinct
  have left := loading_finish loading distinct.1
  constructor
  · rw [left]
    exact distinct.2
  · intro other mem
    rw [left] at mem
    exact orderly.apart other (by rw [loading]; exact List.mem_cons_of_mem _ mem)

theorem loaded?_keep (registry : Registry) (place other : Place) (scope : ScopeId) :
    (registry.keep place scope).loaded? other =
      (registry.loaded? other).or (if place = other then some scope else none) := by
  rw [keep, loaded?_append]
  by_cases same : place = other
  · simp [loaded?, same]
  · simp [loaded?, same]

theorem Orderly.keep (orderly : registry.Orderly) (idle : place ∉ registry.loading)
    (scope : ScopeId) : (registry.keep place scope).Orderly where
  distinct := orderly.distinct
  apart other mem := by
    have ne : place ≠ other := by
      rintro rfl
      exact idle mem
    rw [loaded?_keep, orderly.apart other mem, if_neg ne, Option.none_or]

end Registry

namespace Rule

variable {settings : Settings} {id : RegistryId} {depth : Nat}

/-- What evaluates the program of a file loads it. -/
theorem orderly_evaluateFile (parts : OrderlyParts settings id depth) (runtime : RuntimeId)
    (place : Place) (program : Node) (scope : ScopeId) :
    (evaluateFile runtime place program scope).Orderly settings id depth := by
  refine orderly_change (by simp) ?_
  refine orderly_part parts runtime (.ofNode program) { scope } fun result => ?_
  refine orderly_change (by simp) ?_
  exact orderly_done result

end Rule

theorem State.registry_modifyRegistry (state : State) {importer : RuntimeId} {id : RegistryId}
    (same : (state.runtime importer).registry = id) (inside : id < state.registries.size)
    (change : Registry → Registry) :
    (state.modifyRegistry importer change).registry id = change (state.registry id) := by
  subst same
  exact state.registry_setRegistry_self _ inside

/-- A file may begin to be loaded by a runtime through its registry. -/
structure State.MayLoad (state : State) (id : RegistryId) (importer : RuntimeId)
    (place : Place) : Prop where
  registry : (state.runtime importer).registry = id
  inside : id < state.registries.size
  orderly : (state.registry id).Orderly
  absent : (state.registry id).loaded? place = none
  idle : place ∉ (state.registry id).loading

namespace Course

variable {settings : Settings} {id : RegistryId} {importer : RuntimeId} {place : Place}
variable {scope : ScopeId} {entry leave : Moment} {inside : List Moment} {ended : Bool}

theorem registry_enter (may : entry.state.MayLoad id importer place)
    (enters : entry.deed = .enter (.loading importer place)) :
    entry.nextState.registry id = (entry.state.registry id).begin place := by
  simp only [Moment.nextState, enters, Frame.enter]
  exact entry.state.registry_modifyRegistry may.registry may.inside _

/-- What is loaded while a file is being loaded is another file. -/
theorem meanwhile (may : entry.state.MayLoad id importer place)
    (enters : entry.deed = .enter (.loading importer place))
    (course : Course settings id entry.nextState inside ended leave.state) :
    (leave.state.registry id).loading = place :: (entry.state.registry id).loading ∧
      (leave.state.registry id).loaded? place = none ∧ ∀ m ∈ inside, ¬ m.Begins id place := by
  have entered := registry_enter may enters
  have loading :
      (leave.state.registry id).loading = place :: (entry.state.registry id).loading := by
    rw [course.loading, entered]
    rfl
  refine ⟨loading, course.orderly.apart place ?_, fun m mem begins => ?_⟩
  · rw [loading]
    exact List.mem_cons_self ..
  · have idle := (course.fresh m mem place begins).2
    rw [entered] at idle
    exact idle (List.mem_cons_self ..)

/-- A file that was being loaded is left. What was loaded meanwhile stays. -/
theorem interrupted (entry leave : Moment) (may : entry.state.MayLoad id importer place)
    (enters : entry.deed = .enter (.loading importer place))
    (course : Course settings id entry.nextState inside ended leave.state)
    (leaves : leave.deed = .leave (.loading importer place))
    (registry : (leave.state.runtime importer).registry = id)
    (size : id < leave.state.registries.size) :
    Course settings id entry.state (entry :: (inside ++ [leave])) false leave.nextState := by
  have entered := registry_enter may enters
  have left : leave.nextState.registry id = (leave.state.registry id).finish place := by
    simp only [Moment.nextState, leaves, Frame.leave]
    exact leave.state.registry_modifyRegistry registry size _
  obtain ⟨loading, absent, others⟩ := meanwhile may enters course
  have silent : ∀ other, ¬ leave.Begins id other := Moment.not_begins (by simp [leaves])
  constructor
  · rw [left]
    exact course.orderly.finish loading
  · rw [left]
    exact Registry.loading_finish loading may.idle
  · rw [left]
    have loaded := course.loaded
    rw [entered] at loaded
    exact loaded
  · refine List.forall_mem_cons.mpr ⟨may.orderly, List.forall_mem_append.mpr ⟨course.always, ?_⟩⟩
    simpa using course.orderly
  · refine List.forall_mem_cons.mpr ⟨?_, List.forall_mem_append.mpr ⟨?_, ?_⟩⟩
    · intro other begins
      rw [begins.place_eq enters]
      exact ⟨may.absent, may.idle⟩
    · intro m mem other begins
      obtain ⟨absent, idle⟩ := course.fresh m mem other begins
      rw [entered] at absent idle
      exact ⟨absent, fun mem => idle (List.mem_cons_of_mem _ mem)⟩
    · intro m mem other begins
      rw [List.mem_singleton.mp mem] at begins
      exact absurd begins (silent other)
  · exact fun ends => by cases ends
  · intro other scope free found
    rw [left] at found
    have found' : (leave.state.registry id).loaded? other = some scope := found
    have free' : (entry.nextState.registry id).loaded? other = none := by
      rw [entered]
      exact free
    have last : ∀ m ∈ [leave], ¬ m.Begins id other := by simpa using silent other
    have once := (course.once other scope free' found').append_right last
    have first : ∀ m ∈ [entry], ¬ m.Begins id other := by
      intro m mem begins
      rw [List.mem_singleton.mp mem] at begins
      -- The file itself is not yet kept.
      rw [begins.place_eq enters, absent] at found'
      cases found'
    exact once.append_left first
  · refine List.pairwise_cons.mpr ⟨fun m mem other begins => ?_, List.pairwise_append.mpr
      ⟨course.apart, List.pairwise_singleton .., by simp [silent]⟩⟩
    rw [begins.place_eq enters]
    rcases List.mem_append.mp mem with inner | last
    · exact others m inner
    · rw [List.mem_singleton.mp last]
      exact silent place

/-- A file that has been loaded is kept. -/
theorem keep {a b : State} {xs : List Moment} (left : Course settings id a xs false b)
    (absent : (b.registry id).loaded? place = none) (idle : place ∉ (a.registry id).loading)
    (once : LoadedOnce settings id place scope xs)
    (others : ∀ m ∈ xs, ∀ other, other ≠ place → m.Begins id other →
      (b.registry id).loaded? other ≠ none)
    {last : Moment} (start : last.state = b)
    (keeps : last.deed = .change (.keep importer place scope))
    (registry : (b.runtime importer).registry = id) (size : id < b.registries.size) :
    Course settings id a (xs ++ [last]) true last.nextState := by
  subst start
  have kept : last.nextState.registry id = (last.state.registry id).keep place scope := by
    simp only [Moment.nextState, keeps, Change.apply]
    exact last.state.registry_modifyRegistry registry size _
  have silent : ∀ other, ¬ last.Begins id other := Moment.not_begins (by simp [keeps])
  constructor
  · rw [kept]
    refine left.orderly.keep ?_ scope
    rw [left.loading]
    exact idle
  · rw [kept]
    exact left.loading
  · rw [kept]
    exact left.loaded.trans (List.prefix_append ..)
  · exact List.forall_mem_append.mpr ⟨left.always, by simpa using left.orderly⟩
  · intro m mem other begins
    rcases List.mem_append.mp mem with early | late
    · exact left.fresh m early other begins
    · rw [List.mem_singleton.mp late] at begins
      exact absurd begins (silent other)
  · intro _ m mem other begins
    rw [kept, Registry.loaded?_keep]
    by_cases same : place = other
    · simp [same]
    · rw [if_neg same, Option.or_none]
      rcases List.mem_append.mp mem with early | late
      · exact others m early other (Ne.symm same) begins
      · rw [List.mem_singleton.mp late] at begins
        exact absurd begins (silent other)
  · intro other scope' free found
    refine LoadedOnce.append_right ?_ (by simpa using silent other)
    rw [kept, Registry.loaded?_keep] at found
    by_cases same : place = other
    · subst same
      rw [absent, if_pos rfl, Option.none_or] at found
      cases found
      exact once
    · rw [if_neg same, Option.or_none] at found
      exact left.once other scope' free found
  · exact List.pairwise_append.mpr ⟨left.apart, List.pairwise_singleton .., by simp [silent]⟩

/-- A file that is loaded to its end is kept. -/
theorem completed (may : entry.state.MayLoad id importer place)
    (enters : entry.deed = .enter (.loading importer place))
    (course : Course settings id entry.nextState inside true leave.state)
    (leaves : leave.deed = .leave (.loading importer place))
    (registry : (leave.state.runtime importer).registry = id)
    (size : id < leave.state.registries.size)
    (loads : entry.Loads settings id place scope inside)
    {last : Moment} (start : last.state = leave.nextState)
    (keeps : last.deed = .change (.keep importer place scope)) :
    Course settings id entry.state (entry :: (inside ++ [leave]) ++ [last]) true
      last.nextState := by
  obtain ⟨-, absent, others⟩ := meanwhile may enters course
  have left := interrupted entry leave may enters course leaves registry size
  have found : leave.nextState.registry id = (leave.state.registry id).finish place := by
    simp only [Moment.nextState, leaves, Frame.leave]
    exact leave.state.registry_modifyRegistry registry size _
  have silent : ∀ m ∈ inside ++ [leave], ¬ m.Begins id place := by
    refine List.forall_mem_append.mpr ⟨others, ?_⟩
    simp [Moment.Begins, leaves]
  have once : LoadedOnce settings id place scope (entry :: (inside ++ [leave])) :=
    ⟨[], entry, inside, [leave], rfl, loads, silent⟩
  have absent' : (leave.nextState.registry id).loaded? place = none := by
    rw [found]
    exact absent
  refine left.keep absent' may.idle once ?_ start keeps ?_ ?_
  · intro m mem other ne begins
    rw [found]
    rcases List.mem_cons.mp mem with rfl | mem
    · exact absurd (begins.place_eq enters) ne
    · rcases List.mem_append.mp mem with mem | mem
      · exact course.kept rfl m mem other begins
      · rw [List.mem_singleton.mp mem] at begins
        exact absurd begins (Moment.not_begins (by simp [leaves]) other)
  · simp only [Moment.nextState, leaves]
    exact registry
  · simp only [Moment.nextState, leaves, Frame.leave, State.modifyRegistry, State.size_setRegistry]
    exact size

end Course

/-- A runtime imports through the same registry when it has added another one. -/
theorem Change.registry_addRuntime (state : State) (importer : RuntimeId) (directory : Place) :
    (((addRuntime importer directory).apply state).runtime importer).registry =
      (state.runtime importer).registry := by
  by_cases new : importer = state.runtimes.size
  · have added := runtime_addRuntime state importer directory
    rw [← new] at added
    rw [added]
  · simp [apply, State.addRuntime, State.runtime, State.allocate, Array.getElem?_push, new]

namespace Rule

variable {settings : Settings} {id : RegistryId} {depth : Nat}

/-- Evaluates the program of a file in the root scope of a runtime, for another runtime, which keeps
the scope. -/
def load (importer module : RuntimeId) (place : Place) (program : Node) (root : ScopeId) :
    Rule ScopeId :=
  within (.loading importer place) (evaluateFile module place program root) fun _ =>
    change (.keep importer place root) (done root)

section

variable {α β : Type} {frame : Frame} {body : Rule β} {state after : State}
variable (frames : List Frame)

/-- What is done within a frame that gives a result goes on after the frame is left. -/
theorem within_of_ok (next : β → Rule α) {b : β}
    (outcome : body.run (TreeScript.evaluate depth) settings (frame.enter state) = (.ok b, after)) :
    (within frame body next).moments settings depth frames state =
        ⟨depth, frames, state, .enter frame⟩ ::
          (body.moments settings depth (frame :: frames) (frame.enter state) ++
            [⟨depth, frame :: frames, after, .leave frame⟩]) ++
          (next b).moments settings depth frames (frame.leave after) ∧
      (within frame body next).run (TreeScript.evaluate depth) settings state =
        (next b).run (TreeScript.evaluate depth) settings (frame.leave after) := by
  constructor
  · simp [moments, momentsWith, outcome]
  · simp only [run, outcome]

/-- Otherwise nothing else is done. -/
theorem within_of_error (next : β → Rule α) {reason : Interrupt}
    (outcome : body.run (TreeScript.evaluate depth) settings (frame.enter state) =
      (.error reason, after)) :
    (within frame body next).moments settings depth frames state =
        ⟨depth, frames, state, .enter frame⟩ ::
          (body.moments settings depth (frame :: frames) (frame.enter state) ++
            [⟨depth, frame :: frames, after, .leave frame⟩]) ∧
      (within frame body next).run (TreeScript.evaluate depth) settings state =
        (.error reason, frame.leave after) := by
  constructor
  · simp only [moments, momentsWith, outcome]
  · simp only [run, outcome]

theorem forall_mem_within {next : β → Rule α} {P : Moment → Prop}
    (all : ∀ m ∈ (within frame body next).moments settings depth frames state, P m) :
    P ⟨depth, frames, state, .enter frame⟩ ∧
      ∀ m ∈ body.moments settings depth (frame :: frames) (frame.enter state), P m := by
  simp only [moments, momentsWith] at all
  obtain ⟨entry, rest⟩ := List.forall_mem_cons.mp all
  exact ⟨entry, (List.forall_mem_append.mp rest).1⟩

end

/-- Where the file is loaded through another registry, only what its program loads matters. -/
theorem orderlyAt_load_of_ne {importer module : RuntimeId} {place : Place} {program : Node}
    {root : ScopeId} {frames : List Frame} {state : State}
    (inner : (evaluateFile module place program root).Orderly settings id depth)
    (other : (state.runtime importer).registry ≠ id) :
    (load importer module place program root).OrderlyAt settings id depth frames state := by
  intro orderly founded
  obtain ⟨entry, inside⟩ := forall_mem_within frames founded
  have importer_lt := (entry importer place rfl).1
  have grows := (Frame.enter_grows state (.loading importer place)).trans
    (run_grows depth (evaluateFile module place program root) settings _)
  have enter := Frame.settled id state (.loading importer place) fun importer' place' same => by
    cases same
    exact other
  have entered : Course settings id state
      [⟨depth, frames, state, .enter (.loading importer place)⟩] true
      (Frame.enter state (.loading importer place)) := by
    refine .single orderly enter.1 ?_
    rintro place' ⟨importer', deed, registry⟩
    cases deed
    exact other registry
  have course := inner _ _ entered.orderly inside
  unfold load
  cases outcome : (evaluateFile module place program root).run (TreeScript.evaluate depth) settings
    (Frame.enter state (.loading importer place)) with
  | mk result after =>
      rw [outcome] at grows course
      have registry : (after.runtime importer).registry ≠ id := by
        rw [(grows.runtime importer importer_lt).registry]
        exact other
      have leave := (Frame.settled id after (.loading importer place)
        fun importer' place' same => by
          cases same
          exact registry).2
      have left := course.snoc depth (.loading importer place :: frames)
        (.leave (.loading importer place)) leave (by simp [Moment.Begins])
      cases result with
      | error reason =>
          obtain ⟨moments, ends⟩ := within_of_error frames
            (fun _ => change (.keep importer place root) (done root)) outcome
          rw [moments, ends]
          exact entered.append left
      | ok x =>
          obtain ⟨moments, ends⟩ := within_of_ok frames
            (fun _ => change (.keep importer place root) (done root)) outcome
          rw [moments, ends]
          have kept := Change.settled id (Frame.leave after (.loading importer place))
            (c := .keep importer place root) fun importer' place' scope same => by
              cases same
              exact registry
          exact (entered.append left).snoc _ _ _ kept (by simp [Moment.Begins])

/-- Where the file is loaded through the registry itself, it is kept if its program is evaluated to
the end. -/
theorem orderlyAt_load_of_eq {importer module : RuntimeId} {place : Place} {document : Node}
    {root : ScopeId} {frames : List Frame} {state : State} (earlier : State)
    (inner : (evaluateFile module place (earlier.mark document).1 root).Orderly settings id depth)
    (same : (state.runtime importer).registry = id)
    (absent : (state.registry id).loaded? place = none)
    (idle : place ∉ (state.registry id).loading)
    (reads : settings.files.program place = .ok document)
    (isRoot : (state.runtime module).root = root) :
    (load importer module place (earlier.mark document).1 root).OrderlyAt settings id depth frames
      state := by
  intro orderly founded
  obtain ⟨entry, inside⟩ := forall_mem_within frames founded
  obtain ⟨importer_lt, registry_lt⟩ := entry importer place rfl
  have grows := (Frame.enter_grows state (.loading importer place)).trans
    (run_grows depth (evaluateFile module place (earlier.mark document).1 root) settings _)
  have may : state.MayLoad id importer place := ⟨same, same ▸ registry_lt, orderly, absent, idle⟩
  have entered : ((Frame.enter state (.loading importer place)).registry id).Orderly := by
    have begun := state.registry_modifyRegistry may.registry may.inside (·.begin place)
    rw [Frame.enter, begun]
    exact orderly.begin absent idle
  have course := inner _ _ entered inside
  unfold load
  cases outcome : (evaluateFile module place (earlier.mark document).1 root).run
    (TreeScript.evaluate depth) settings (Frame.enter state (.loading importer place)) with
  | mk result after =>
      rw [outcome] at grows course
      have registry : (after.runtime importer).registry = id :=
        (grows.runtime importer importer_lt).registry.trans same
      have size : id < after.registries.size := by
        rw [grows.registries]
        exact may.inside
      cases result with
      | error reason =>
          obtain ⟨moments, ends⟩ := within_of_error frames
            (fun _ => change (.keep importer place root) (done root)) outcome
          rw [moments, ends]
          exact Course.interrupted ⟨depth, frames, state, .enter (.loading importer place)⟩
            ⟨depth, .loading importer place :: frames, after, .leave (.loading importer place)⟩ may
            rfl course rfl registry size
      | ok x =>
          obtain ⟨moments, ends⟩ := within_of_ok frames
            (fun _ => change (.keep importer place root) (done root)) outcome
          rw [moments, ends]
          have loads : Moment.Loads settings id place root
              ⟨depth, frames, state, .enter (.loading importer place)⟩ _ :=
            ⟨⟨importer, rfl, same⟩, importer, module, document, earlier, rfl, reads, isRoot, rfl, x,
              after, outcome⟩
          exact Course.completed may rfl course rfl registry size loads rfl rfl

/-- A module is loaded in a new runtime. -/
theorem orderlyAt_evaluateModule (parts : OrderlyParts settings id depth) {importer : RuntimeId}
    {place : Place} {document : Node} {frames : List Frame} {state : State}
    (reads : settings.files.program place = .ok document)
    (free : (state.runtime importer).registry = id →
      (state.registry id).loaded? place = none ∧ place ∉ (state.registry id).loading) :
    (evaluateModule importer place document).OrderlyAt settings id depth frames state := by
  intro orderly founded
  let marked := Change.apply state (.mark document)
  let added := Change.apply marked (.addRuntime importer place.up)
  let module := marked.runtimes.size
  let rest := load importer module place (state.mark document).1 (added.runtime module).root
  have moments : (evaluateModule importer place document).moments settings depth frames state =
      [⟨depth, frames, state, .change (.mark document)⟩] ++
        [⟨depth, frames, marked, .change (.addRuntime importer place.up)⟩] ++
        rest.moments settings depth frames added := rfl
  have run : (evaluateModule importer place document).run (TreeScript.evaluate depth) settings
      state = rest.run (TreeScript.evaluate depth) settings added := rfl
  rw [moments] at founded ⊢
  rw [run]
  have mark : State.Settled id state marked := Change.settled id state (by simp)
  have add : State.Settled id marked added := Change.settled id marked (by simp)
  have start : Course settings id state
      ([⟨depth, frames, state, .change (.mark document)⟩] ++
        [⟨depth, frames, marked, .change (.addRuntime importer place.up)⟩]) true added :=
    (Course.single orderly mark (by simp [Moment.Begins])).snoc _ _ _ add (by simp [Moment.Begins])
  have founded' := (List.forall_mem_append.mp founded).2
  have inner := orderly_evaluateFile parts module place (state.mark document).1
    (added.runtime module).root
  have registry : (added.runtime importer).registry = (state.runtime importer).registry :=
    Change.registry_addRuntime marked importer place.up
  by_cases same : (state.runtime importer).registry = id
  · obtain ⟨absent, idle⟩ := free same
    have absent' : (added.registry id).loaded? place = none := by
      rw [add.loaded? place, mark.loaded? place]
      exact absent
    have idle' : place ∉ (added.registry id).loading := by
      rw [add.loading, mark.loading]
      exact idle
    have loads : rest.OrderlyAt settings id depth frames added :=
      orderlyAt_load_of_eq state inner (registry.trans same) absent' idle' reads rfl
    exact start.append (loads start.orderly founded')
  · have other : (added.runtime importer).registry ≠ id := by
      rw [registry]
      exact same
    exact start.append (orderlyAt_load_of_ne inner other start.orderly founded')

theorem orderly_moduleOfFile (parts : OrderlyParts settings id depth) (importer : RuntimeId)
    (place : Place) : (moduleOfFile importer place).Orderly settings id depth := by
  intro frames state
  simp only [moduleOfFile, orderlyAt_inspect]
  split
  · exact orderly_done _ frames state
  · rename_i absent
    simp only [orderlyAt_inspect]
    split
    · exact orderly_fail _ _ _ frames state
    · rename_i idle
      simp only [orderlyAt_inspect]
      split
      · split
        · exact orderly_halt _ frames state
        · exact orderly_fail _ _ _ frames state
      · rename_i document reads
        refine orderlyAt_evaluateModule parts reads fun same => ?_
        subst same
        refine ⟨absent, ?_⟩
        simpa [Registry.isLoading, State.registryOf] using idle

/-- Every routine rule is orderly. -/
theorem Routine.orderly {loads : Prop} {α : Type} {runtime : RuntimeId} {rule : Rule α}
    (parts : OrderlyParts settings id depth) (routine : Routine loads runtime rule) :
    rule.Orderly settings id depth := by
  induction routine with
  | done a => exact orderly_done a
  | look _ ih => exact orderly_look ih
  | change routine _ ih =>
      refine orderly_change ?_ ih
      rintro runtime place scope rfl
      exact routine
  | fail _ => exact orderly_fail _ _ _
  | halt reason => exact orderly_halt reason
  | part _ ih => exact orderly_part parts _ _ _ ih
  | call _ _ _ body_ih ih => exact orderly_within (by simp) body_ih ih
  | builtin _ _ body_ih ih => exact orderly_within (by simp) body_ih ih
  | file place _ _ ih => exact orderly_bind (orderly_moduleOfFile parts _ place) ih

end Rule

/-- At every depth the evaluation of every part is a course. -/
theorem orderlyParts (settings : Settings) (id : RegistryId) (depth : Nat) :
    OrderlyParts settings id depth := by
  induction depth with
  | zero =>
      intro runtime object context frames state orderly _
      exact .nil orderly
  | succ depth ih =>
      intro runtime object context frames state orderly founded
      exact (routine_evaluateStep object).orderly ih frames state orderly founded

end TreeScript
