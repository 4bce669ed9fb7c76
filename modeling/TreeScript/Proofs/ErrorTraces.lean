import TreeScript.Proofs.Session

/-!
# Where errors are told to come from

An error tells the innermost call and the names of all calls of the runtime that reports it. A
builtin reports errors through the runtime that it belongs to, while the calls around it may be
evaluated by others: a function of a module has the builtins of the module, and whoever imported
the module evaluates its body. The error of a builtin is about its own call and names every active
call exactly when all of them are evaluated by the runtime of the builtin.
-/

namespace TreeScript

namespace Frame

/-- The names of calls, of which the innermost comes first. -/
def callNames (calls : List (RuntimeId × Node)) : List String :=
  calls.reverse.filterMap fun entry => entry.2.callName?

/-- The names of all calls that are active, the outermost first. -/
def activeNames (frames : List Frame) : List String := callNames (frames.filterMap call?)

theorem length_callNames {calls : List (RuntimeId × Node)}
    (named : ∀ entry ∈ calls, entry.2.callName?.isSome = true) :
    (callNames calls).length = calls.length := by
  rw [callNames, List.filterMap_length_eq_length.mpr, List.length_reverse]
  exact fun entry mem => named entry (List.mem_reverse.mp mem)

theorem mem_filterMap_call? {frames : List Frame} {entry : RuntimeId × Node} :
    entry ∈ frames.filterMap call? ↔ .call entry.1 entry.2 ∈ frames := by
  rw [List.mem_filterMap]
  constructor
  · rintro ⟨frame, mem, found⟩
    cases frame with
    | call walker node =>
        cases found
        exact mem
    | builtin _ | loading _ _ => cases found
  · exact fun mem => ⟨_, mem, rfl⟩

/-- The calls of one runtime are those of all that it evaluates. -/
theorem filterMap_callOf? (runtime : RuntimeId) (frames : List Frame) :
    frames.filterMap (callOf? runtime) =
      ((frames.filterMap call?).filter fun entry => entry.1 == runtime).map (·.2) := by
  induction frames with
  | nil => rfl
  | cons frame rest ih =>
      cases frame with
      | call walker node =>
          by_cases same : walker = runtime
          · simp [callOf?, call?, same, ih]
          · simp [callOf?, call?, same, ih]
      | builtin _ | loading _ _ => exact ih

end Frame

namespace Tracked

variable {frames : List Frame} {state : State}

theorem names_eq (tracked : Tracked frames state) {runtime : RuntimeId}
    (inside : runtime < state.runtimes.size) :
    (state.runtime runtime).calls.reverse.filterMap Node.callName? =
      Frame.callNames ((frames.filterMap Frame.call?).filter fun entry => entry.1 == runtime) := by
  rw [tracked.calls runtime inside, Frame.filterMap_callOf?, ← List.map_reverse,
    List.filterMap_map]
  rfl

/-- A runtime names all active calls exactly when it evaluates all of them. -/
theorem names_iff (tracked : Tracked frames state) {runtime : RuntimeId}
    (inside : runtime < state.runtimes.size) :
    (state.runtime runtime).calls.reverse.filterMap Node.callName? = Frame.activeNames frames ↔
      ∀ walker node, .call walker node ∈ frames → walker = runtime := by
  rw [tracked.names_eq inside, Frame.activeNames]
  constructor
  · intro same walker node mem
    -- Every call has a name, so as many calls are the runtime's as there are.
    have named (entry : RuntimeId × Node) (h : entry ∈ frames.filterMap Frame.call?) :
        entry.2.callName?.isSome = true :=
      (tracked.callers _ _ (Frame.mem_filterMap_call?.mp h)).2
    have lengths := congrArg List.length same
    rw [Frame.length_callNames named,
      Frame.length_callNames fun entry h => named entry (List.mem_filter.mp h).1,
      List.length_filter_eq_length_iff] at lengths
    have found : (walker, node) ∈ frames.filterMap Frame.call? :=
      Frame.mem_filterMap_call?.mpr mem
    exact beq_iff_eq.mp (lengths _ found)
  · intro own
    rw [List.filter_eq_self.mpr]
    exact fun entry h => beq_iff_eq.mpr (own _ _ (Frame.mem_filterMap_call?.mp h))

end Tracked

/-- A rule that fails at some moment ends with the error of that moment. -/
theorem Rule.error_of_fail {α : Type} {settings : Settings} {depth : Nat} {rule : Rule α}
    {frames : List Frame} {state : State} {moment : Moment}
    (mem : moment ∈ rule.moments settings depth frames state) {runtime : RuntimeId} {cause : Cause}
    {node : Node} (fails : moment.deed = .fail runtime cause node) :
    (rule.run (TreeScript.evaluate depth) settings state).1 =
      .error (.error ((moment.state.runtime runtime).error cause node)) := by
  have ends := rule.moments_endsFor settings depth frames state
  generalize (rule.run (TreeScript.evaluate depth) settings state).1 = result at ends ⊢
  have reason : moment.reason? =
      some (.error ((moment.state.runtime runtime).error cause node)) := by
    simp [Moment.reason?, fails]
  have found := ends.eq_of_mem mem reason
  cases result with
  | ok a => cases found
  | error other => exact congrArg Except.error (Option.some.inj found)

namespace Runner

variable {hosted : Bool} {settings : Settings} {depth : Nat} {runner : Runner}
variable {place : Option Place} {program : Node} {state : State} {moment : Moment}
variable {runtime : RuntimeId} {cause : Cause} {node : Node} {invocation : Invocation}

/-- A builtin fails through the runtime that it belongs to, directly within the call that called it,
and the program ends with its error. -/
theorem builtin_error (session : Session hosted state) (valid : runner.Valid hosted state)
    (mem : moment ∈ runner.moments settings depth place program state)
    (fails : moment.deed = .fail runtime cause node)
    (inside : moment.frames.head? = some (.builtin invocation))
    (own : ∀ name, cause ≠ .unknownModule name) :
    runtime = invocation.runtime ∧ node = .absent ∧ runtime < moment.state.runtimes.size ∧
      (∃ walker call rest, moment.frames = .builtin invocation :: .call walker call :: rest) ∧
      (runner.evaluateProgram depth place program settings state).1 =
        .error (.error ((moment.state.runtime runtime).error cause node)) := by
  have proper := (run_sound settings session.sound valid depth place program).proper moment mem
  have tracked := (run_tracked session.sound valid session.idle depth place program).2 moment mem
  rw [fails] at proper
  obtain ⟨-, runtime_lt, proper⟩ := proper
  obtain ⟨owner, absent⟩ := proper invocation inside
  obtain ⟨outer, frames⟩ := List.head?_eq_some_iff.mp inside
  obtain ⟨walker, call, around⟩ : ∃ walker call, outer.head? = some (.call walker call) :=
    (frames ▸ tracked.nested).1
  obtain ⟨rest, rfl⟩ := List.head?_eq_some_iff.mp around
  exact ⟨owner.symm, absent.resolve_right (not_exists.mpr own), runtime_lt,
    ⟨walker, call, rest, frames⟩, Rule.error_of_fail mem fails⟩

/-- When a builtin fails, the program ends with its error. The error is about the call of the
builtin and names all active calls, the outermost first, exactly when all of these are evaluated by
the runtime that the builtin belongs to. An import that is evaluated for the builtin and finds no
module is no failure of the builtin. -/
theorem builtin_error_located_iff (session : Session hosted state)
    (valid : runner.Valid hosted state)
    (mem : moment ∈ runner.moments settings depth place program state)
    (fails : moment.deed = .fail runtime cause node)
    (inside : moment.frames.head? = some (.builtin invocation))
    (own : ∀ name, cause ≠ .unknownModule name) :
    ∃ error walker call rest,
      moment.frames = .builtin invocation :: .call walker call :: rest ∧
      (runner.evaluateProgram depth place program settings state).1 = .error (.error error) ∧
      error.cause = cause ∧
      ((error.node = call ∧ error.trace = Frame.activeNames moment.frames) ↔
        ∀ walker node, .call walker node ∈ moment.frames → walker = invocation.runtime) := by
  have tracked := (run_tracked session.sound valid session.idle depth place program).2 moment mem
  obtain ⟨rfl, rfl, runtime_lt, ⟨walker, call, rest, frames⟩, ends⟩ :=
    builtin_error session valid mem fails inside own
  refine ⟨_, walker, call, rest, frames, ends, rfl, ?_⟩
  rw [← tracked.names_iff runtime_lt]
  refine ⟨fun both => both.2, fun names => ⟨?_, names⟩⟩
  have walks := (tracked.names_iff runtime_lt).mp names walker call (by simp [frames])
  have calls := tracked.calls invocation.runtime runtime_lt
  simp only [frames, walks, List.filterMap_cons, Frame.callOf?, if_true] at calls
  simp only [Runtime.error, calls, List.headD_cons]

end Runner

/-- Whether a builtin fails at a moment. -/
def Moment.isBuiltinFailure (moment : Moment) : Bool :=
  match moment.deed, moment.frames with
  | .fail _ (.unknownModule _) _, _ => false
  | .fail .., .builtin _ :: _ => true
  | _, _ => false

theorem Moment.exists_of_isBuiltinFailure {moment : Moment}
    (h : moment.isBuiltinFailure = true) :
    ∃ runtime cause node invocation, moment.deed = .fail runtime cause node ∧
      moment.frames.head? = some (.builtin invocation) ∧ ∀ name, cause ≠ .unknownModule name := by
  unfold isBuiltinFailure at h
  split at h
  · cases h
  · rename_i runtime cause node invocation rest other fails frames
    exact ⟨runtime, cause, node, invocation, fails, by simp [frames], fun name same =>
      other name (by rw [same])⟩
  · cases h

/-- `sub()` fails in the runtime of the program. -/
theorem Runner.builtin_error_located_iff_sub :
    let program : Node := .call "sub" [] .absent {}
    ∃ moment invocation error walker call rest,
      moment ∈ Runner.main.moments (.quiet .empty) 12 none program State.fresh ∧
      moment.frames = .builtin invocation :: .call walker call :: rest ∧
      (Runner.main.evaluateProgram 12 none program (.quiet .empty) State.fresh).1 =
        .error (.error error) ∧
      ((error.node = call ∧ error.trace = Frame.activeNames moment.frames) ↔
        ∀ walker node, .call walker node ∈ moment.frames → walker = invocation.runtime) := by
  intro program
  have found : (Runner.main.moments (.quiet .empty) 12 none program State.fresh).any
      Moment.isBuiltinFailure = true := by decide +kernel
  obtain ⟨moment, mem, check⟩ := List.any_eq_true.mp found
  obtain ⟨runtime, cause, node, invocation, fails, inside, own⟩ :=
    Moment.exists_of_isBuiltinFailure check
  obtain ⟨error, walker, call, rest, frames, ends, -, iff⟩ := Runner.builtin_error_located_iff
    (Session.fresh false) (Runner.main_valid false) mem fails inside own
  exact ⟨moment, invocation, error, walker, call, rest, mem, frames, ends, iff⟩

/-- A file with a function `f` that calls `sub` without arguments. -/
def Files.subtraction : Files := .ofLines [("lib.yaml", [
  "type: FunctionCall",
  "name: def",
  "parameters:",
  "- type: MemoryLiteral",
  "  value: f",
  "yieldFunction:",
  "  type: FunctionCall",
  "  name: sub"])]

/-- Whether `sub` fails at a moment within a call of `./lib.f`, with an error that names no call and
is about none. -/
def Moment.isUnlocatedFailure (moment : Moment) : Bool :=
  moment.isBuiltinFailure && match moment.deed with
    | .fail runtime cause node =>
        let error := (moment.state.runtime runtime).error cause node
        Frame.activeNames moment.frames == ["./lib.f", "sub"] && error.trace == [] &&
          error.node.callName? == none
    | _ => false

/-- The error of a builtin that the function of a module calls names no call. -/
theorem Runner.module_error_names_no_call :
    ∃ moment invocation error walker call rest,
      moment ∈ Runner.main.moments (.quiet .subtraction) 12 none .callOfModule State.fresh ∧
      moment.frames = .builtin invocation :: .call walker call :: rest ∧
      (Runner.main.evaluateProgram 12 none .callOfModule (.quiet .subtraction) State.fresh).1 =
        .error (.error error) ∧
      Frame.activeNames moment.frames = ["./lib.f", "sub"] ∧ error.trace = [] ∧
      error.node ≠ call := by
  have found : (Runner.main.moments (.quiet .subtraction) 12 none .callOfModule State.fresh).any
      Moment.isUnlocatedFailure = true := by decide +kernel
  obtain ⟨moment, mem, check⟩ := List.any_eq_true.mp found
  obtain ⟨fails, check⟩ := Bool.and_eq_true_iff.mp check
  obtain ⟨runtime, cause, node, invocation, fails, inside, own⟩ :=
    Moment.exists_of_isBuiltinFailure fails
  have tracked := (Runner.run_tracked (Session.fresh false).sound (Runner.main_valid false)
    (Session.fresh false).idle 12 none .callOfModule).2 moment mem
  obtain ⟨-, -, -, ⟨walker, call, rest, frames⟩, ends⟩ := Runner.builtin_error
    (Session.fresh false) (Runner.main_valid false) mem fails inside own
  simp only [fails, Bool.and_eq_true, beq_iff_eq] at check
  obtain ⟨⟨names, trace⟩, unnamed⟩ := check
  refine ⟨moment, invocation, _, walker, call, rest, mem, frames, ends, names, trace, ?_⟩
  have named := (tracked.callers walker call (by simp [frames])).2
  rintro rfl
  simp [unnamed] at named

end TreeScript
