import TreeScript.Proofs.Journals
import TreeScript.Proofs.Session

/-!
# Where output goes

A host has one runtime, which prints to its journal, and calls one runner for scripts and files.
Each call that gives a result gives it a journal of its own. Whatever is printed meanwhile goes
there, be it printed by the program, by a file while it is loaded, or by a function of a file that
this call or an earlier one has loaded. After that comes the message of the error, if there is one,
and later calls leave the journal alone.
-/

namespace TreeScript

/-- What a runner is asked to run. -/
inductive Request where
  | script (script : Script)
  | file (path : Path)

/-- What a call has evaluated, and its result. -/
structure Reply where
  settings : Settings
  moments : List Moment
  result : RunResult

/-- What is noted when a run has ended. -/
def RunResult.closing (result : RunResult) : List Note :=
  match result.outcome with
  | .success _ => []
  | .error report => [⟨.error, report.message⟩]

/-- A text that is printed at a moment is added to a journal, which is that of the one runtime and
of no other runtime at that time, and to no other journal. -/
structure Moment.Delivers (top : RuntimeId) (owned : JournalId) (p : Moment) (text : String) :
    Prop where
  current : (p.state.runtime top).journal = owned
  apart : ∀ id, id < p.state.runtimes.size → id ≠ top → (p.state.runtime id).journal ≠ owned
  added : p.nextState.journal owned = p.state.journal owned ++ [⟨.output, text⟩]
  kept : ∀ j, j ≠ owned → p.nextState.journal j = p.state.journal j

/-- The journal of the result has what was printed, in order, and then the message of the error if
there is one. What was printed was printed by completed executions of `print`, and at that time it
was delivered to this journal alone. -/
structure Reply.Delivered (reply : Reply) (top : RuntimeId) (now : State) : Prop where
  executions : Executions reply.settings reply.moments
  delivers : ∀ p ∈ reply.moments, ∀ owner text, p.printed? = some (owner, text) →
    p.Delivers top reply.result.journal text
  journal : now.journal reply.result.journal =
    reply.moments.filterMap Moment.note? ++ reply.result.closing

theorem Moment.delivers {top : RuntimeId} {p : Moment} (routes : p.state.Routes top)
    (owned : ∀ c, p.deed = .change c → c.Owned p.state) {owner : RuntimeId} {text : String}
    (printed : p.printed? = some (owner, text)) :
    p.Delivers top (p.state.runtime top).journal text := by
  have added := (Moment.routed routes owned).journal
  have note : p.note? = some ⟨.output, text⟩ := by simp [Moment.note?, printed]
  refine ⟨rfl, fun id inside ne => ((routes.feeds id inside).apart ne).1, ?_, fun j ne => ?_⟩
  · rw [added, if_pos rfl, note]
    rfl
  · rw [added, if_neg ne.symm, List.append_nil]

/-! ### One call -/

/-- Since an earlier state the one runtime has begun a new journal, in which these notes are. The
other journals are as they were. -/
structure State.Begun (top : RuntimeId) (before now : State) (notes : List Note) : Prop where
  routes : now.Routes top
  own : (now.runtime top).journal = before.journals
  notes : now.journal before.journals = notes
  kept : ∀ j, j ≠ before.journals → now.journal j = before.journal j

namespace State.Begun

variable {top : RuntimeId} {before state after : State} {notes : List Note}

theorem renewJournal (routes : state.Routes top) :
    State.Begun top state (state.renewJournal top) [] where
  routes := routes.renewJournal
  own := by rw [state.runtime_renewJournal_self routes.top_lt]
  notes := routes.unused state.journals (Nat.le_refl _)
  kept _ _ := rfl

theorem silent (begun : State.Begun top before state notes) (silent : state.Silent after) :
    State.Begun top before after notes where
  routes := begun.routes.silent silent
  own := (silent.own top).trans begun.own
  notes := (silent.journal _).trans begun.notes
  kept j ne := (silent.journal j).trans (begun.kept j ne)

theorem note (begun : State.Begun top before state notes) (note : Note) :
    State.Begun top before (state.note top note) (notes ++ [note]) where
  routes := begun.routes.note note
  own := begun.own
  notes := by rw [state.journal_note, begun.own, if_pos rfl, begun.notes]
  kept j ne := by
    rw [state.journal_note, begun.own, if_neg ne.symm, List.append_nil]
    exact begun.kept j ne

/-- What is printed in a run is noted as well. -/
theorem run (begun : State.Begun top before state notes) {frames frames' : List Frame}
    {moments : List Moment} (linked : Linked frames state moments frames' after)
    (owned : ∀ m ∈ moments, ∀ c, m.deed = .change c → c.Owned m.state) :
    State.Begun top before after (notes ++ moments.filterMap Moment.note?) := by
  obtain ⟨final, -, journal⟩ := linked.routes begun.routes owned
  refine ⟨final.1, final.2.trans begun.own, ?_, fun j ne => ?_⟩
  · rw [journal, begun.own, if_pos rfl, begun.notes]
  · rw [journal, begun.own, if_neg ne.symm, List.append_nil]
    exact begun.kept j ne

end State.Begun

namespace Runner

variable {hosted : Bool} {settings : Settings} {depth : Nat} {runner : Runner} {state : State}

/-- The moments of the evaluation in a run of a script. There are none if no program was loaded. -/
def scriptMoments (settings : Settings) (depth : Nat) (runner : Runner) (place : Option Place)
    (script : Script) (state : State) : List Moment :=
  match script.load settings.files.reader with
  | .error _ => []
  | .ok program => runner.moments settings depth place program (runner.prepared settings state)

theorem begun_prepared (routes : state.Routes runner.runtime) (settings : Settings) :
    State.Begun runner.runtime state (runner.prepared settings state) [] :=
  (State.Begun.renewJournal routes).silent
    (State.silent_modifyRuntime _ runner.runtime (fun _ => rfl) fun _ => rfl)

/-- A run of a script begins a journal, which has what was printed and how the run has ended. -/
theorem runFrom_begun (sound : state.Sound hosted) (valid : runner.Valid hosted state)
    (routes : state.Routes runner.runtime) (settings : Settings) (depth : Nat)
    (place : Option Place) (script : Script) :
    ∃ notes, State.Begun runner.runtime state
        (runner.runFrom depth place script settings state).2 notes ∧
      ∀ result, (runner.runFrom depth place script settings state).1 = .ok result →
        result.journal = state.journals ∧
        notes = (runner.scriptMoments settings depth place script state).filterMap Moment.note? ++
          result.closing := by
  have begun := begun_prepared routes settings
  unfold scriptMoments
  rw [runFrom_apply]
  cases script.load settings.files.reader with
  | error fault =>
      simp only
      cases fault.interrupt? with
      | some reason => exact ⟨_, begun, by simp⟩
      | none =>
          refine ⟨_, begun.note _, fun result ended => ?_⟩
          cases ended
          exact ⟨begun.own, rfl⟩
  | ok program =>
      have sound' : (runner.prepared settings state).Sound hosted :=
        sound_prepared sound valid.runtime
      have ran := begun.run
        (runner.moments_linked settings depth place program (runner.prepared settings state))
        (run_owned sound' valid.prepared settings depth place program)
      simp only
      generalize runner.evaluateProgram depth place program settings
        (runner.prepared settings state) = outcome at ran ⊢
      obtain ⟨ended, after⟩ := outcome
      cases ended with
      | ok value =>
          refine ⟨_, ran, fun result ended => ?_⟩
          cases ended
          exact ⟨ran.own, (List.append_nil _).symm⟩
      | error reason =>
          simp only
          cases reason.report settings.room (after.runtime runner.runtime).current with
          | ok report =>
              refine ⟨_, ran.note _, fun result ended => ?_⟩
              cases ended
              exact ⟨ran.own, rfl⟩
          | error obstacle => exact ⟨_, ran, by simp⟩

/-- In a run of a script, completed executions of `print` print, and they do so to the new
journal. -/
theorem scriptMoments_deliver (sound : state.Sound hosted) (valid : runner.Valid hosted state)
    (routes : state.Routes runner.runtime) (place : Option Place) (script : Script) :
    Executions settings (runner.scriptMoments settings depth place script state) ∧
      ∀ p ∈ runner.scriptMoments settings depth place script state, ∀ owner text,
        p.printed? = some (owner, text) → p.Delivers runner.runtime state.journals text := by
  unfold scriptMoments
  cases script.load settings.files.reader with
  | error fault => exact ⟨.nil, fun p mem => absurd mem List.not_mem_nil⟩
  | ok program =>
      have sound' : (runner.prepared settings state).Sound hosted :=
        sound_prepared sound valid.runtime
      have begun := begun_prepared routes settings
      have linked := runner.moments_linked settings depth place program
        (runner.prepared settings state)
      have owned := run_owned sound' valid.prepared settings depth place program
      refine ⟨run_executions sound' valid.prepared settings depth place program,
        fun p mem owner text printed => ?_⟩
      obtain ⟨here, own⟩ := (linked.routes begun.routes owned).2.1 p mem
      have delivers := Moment.delivers here (owned p mem) printed
      rwa [own, begun.own] at delivers

theorem runFrom_delivered (sound : state.Sound hosted) (valid : runner.Valid hosted state)
    (routes : state.Routes runner.runtime) (place : Option Place) {script : Script}
    {result : RunResult}
    (ended : (runner.runFrom depth place script settings state).1 = .ok result) :
    Reply.Delivered ⟨settings, runner.scriptMoments settings depth place script state, result⟩
      runner.runtime (runner.runFrom depth place script settings state).2 := by
  obtain ⟨notes, final, gave⟩ := runFrom_begun sound valid routes settings depth place script
  obtain ⟨journal, rfl⟩ := gave result ended
  obtain ⟨executions, delivers⟩ := scriptMoments_deliver sound valid routes place script
  have noted := final.notes
  rw [← journal] at noted delivers
  exact ⟨executions, delivers, noted⟩

theorem Valid.runFrom (valid : runner.Valid hosted state) (sound : state.Sound hosted)
    (settings : Settings) (depth : Nat) (place : Option Place) (script : Script) :
    runner.Valid hosted (runner.runFrom depth place script settings state).2 := by
  refine runFrom_state (fun after => runner.Valid hosted after) runner valid.prepared
    (fun program _ => ?_) fun id note known => known.note id note
  exact valid.prepared.evaluateProgram (sound_prepared sound valid.runtime) valid.prepared settings
    depth place program

theorem Valid.sound_runFrom (valid : runner.Valid hosted state) (sound : state.Sound hosted)
    (settings : Settings) (depth : Nat) (place : Option Place) (script : Script) :
    (runner.runFrom depth place script settings state).2.Sound hosted := by
  have begun : (runner.prepared settings state).Sound hosted := sound_prepared sound valid.runtime
  exact runFrom_state (State.Sound hosted) runner begun
    (fun program _ => (run_sound settings begun valid.prepared depth place program).final)
    fun id note known => known.record _

/-! ### The calls of a host -/

/-- The runner after a call, the result if there is one, and the state after it. -/
def call (settings : Settings) (depth : Nat) (runner : Runner) (state : State) :
    Request → (Runner × Except Interrupt RunResult) × State
  | .script script =>
      let ended := runner.run depth script settings state
      ((runner, ended.1), ended.2)
  | .file path =>
      match runner.runFile depth path settings state with
      | (.ok answer, after) => (answer, after)
      | (.error reason, after) => ((runner, .error reason), after)

/-- The runner that runs the document of a file imports from the directory of that. -/
def beside (runner : Runner) (files : Files) (path : Path) : Runner :=
  { runner with directory := some (files.working.resolve path.parent) }

/-- The moments of the evaluation in a call. -/
def callMoments (settings : Settings) (depth : Nat) (runner : Runner) (state : State) :
    Request → List Moment
  | .script script => runner.scriptMoments settings depth none script state
  | .file path =>
      match Document.atPath settings.files path with
      | .error _ => []
      | .ok document => (runner.beside settings.files path).scriptMoments settings depth
          (some (settings.files.working.resolve path)) (.data document) state

/-- A call that gives a result is replied to. -/
def replies (settings : Settings) (depth : Nat) (runner : Runner) (state : State)
    (request : Request) : List Reply :=
  match (runner.call settings depth state request).1.2 with
  | .ok result => [⟨settings, runner.callMoments settings depth state request, result⟩]
  | .error _ => []

/-- A call runs a script, which may be the document of a file, or else it evaluates nothing: either
it gives no result, or the result is an error that is noted in a new journal. -/
theorem call_cases (settings : Settings) (depth : Nat) (runner : Runner) (state : State)
    (request : Request) :
    (∃ (other : Runner) (place : Option Place) (script : Script),
      other.runtime = runner.runtime ∧ other.modules = runner.modules ∧
      runner.call settings depth state request =
        ((other, (other.runFrom depth place script settings state).1),
          (other.runFrom depth place script settings state).2) ∧
      runner.callMoments settings depth state request =
        other.scriptMoments settings depth place script state) ∨
    (runner.callMoments settings depth state request = [] ∧
      ((∃ reason, runner.call settings depth state request = ((runner, .error reason), state)) ∨
        ∃ report : Report, runner.call settings depth state request =
          ((runner, .ok ⟨.error report,
              ((state.renewJournal runner.runtime).runtime runner.runtime).journal⟩),
            (state.renewJournal runner.runtime).note runner.runtime
              ⟨.error, report.message⟩))) := by
  cases request with
  | script script => exact .inl ⟨runner, none, script, rfl, rfl, rfl, rfl⟩
  | file path =>
      unfold call callMoments runFile
      simp only [Action.settings, Action.bind_apply]
      cases Document.atPath settings.files path with
      | error fault =>
          refine .inr ⟨rfl, ?_⟩
          simp only
          cases fault.interrupt? decodingKinds with
          | some reason => exact .inl ⟨reason, rfl⟩
          | none => exact .inr ⟨_, rfl⟩
      | ok document =>
          exact .inl ⟨runner.beside settings.files path, _, .data document, rfl, rfl, rfl, rfl⟩

end Runner

/-- What code of the host may do between the calls: it prints nothing, and it keeps no scope as the
module of a file. -/
def Change.OfHost : Change → Prop
  | print .. | keep .. => False
  | _ => True

/-- What a host with one runtime and one runner comes to, and the replies to its calls so far. The
runtime prints to its journal. Each call may have settings and a depth of its own, and between the
calls code of the host may run and may give the runner other modules. -/
inductive History (hosted : Bool) : Runner → State → List Reply → Prop
  | start (directory : Option Place) (reports : Bool) :
      History hosted { runtime := 0, directory }
        ((State.addRegistry {}).2.addRuntime 0 none none reports).2 []
  | change {runner : Runner} {state : State} {replies : List Reply} (c : Change) :
      History hosted runner state replies → hosted = true → c.Safe hosted state → c.OfHost →
      History hosted runner (c.apply state) replies
  | equip {runner : Runner} {state : State} {replies : List Reply}
      (modules : List (String × Source)) :
      History hosted runner state replies →
      (∀ entry ∈ modules, hosted = true ∧ entry.2.Valid (state.extent hosted)) →
      History hosted { runner with modules } state replies
  | call {runner : Runner} {state : State} {replies : List Reply} (settings : Settings)
      (depth : Nat) (request : Request) :
      History hosted runner state replies →
      History hosted (runner.call settings depth state request).1.1
        (runner.call settings depth state request).2
        (replies ++ runner.replies settings depth state request)

namespace Reply

/-- While a journal is left alone, what was delivered is there. -/
theorem Delivered.kept {reply : Reply} {top : RuntimeId} {now later : State}
    (delivered : reply.Delivered top now)
    (same : later.journal reply.result.journal = now.journal reply.result.journal) :
    reply.Delivered top later :=
  { delivered with journal := same.trans delivered.journal }

end Reply

namespace Runner

variable {hosted : Bool} {settings : Settings} {depth : Nat} {runner : Runner} {state : State}
variable {replies : List Reply}

/-- All replies so far were delivered, and the runner is ready for further calls. -/
structure Serving (hosted : Bool) (runner : Runner) (state : State) (replies : List Reply) :
    Prop where
  sound : state.Sound hosted
  valid : runner.Valid hosted state
  routes : state.Routes runner.runtime
  replied : ∀ reply ∈ replies, reply.result.journal < state.journals ∧
    reply.Delivered runner.runtime state

namespace Serving

theorem start (hosted : Bool) (directory : Option Place) (reports : Bool) :
    Serving hosted { runtime := 0, directory }
      ((State.addRegistry {}).2.addRuntime 0 none none reports).2 [] where
  sound := (State.sound_addRegistry (State.sound_empty hosted)).addRuntime (by decide) none none
    reports
  valid := by
    refine ⟨⟨by simp [State.addRuntime, State.allocate], fun i entry mem => ?_⟩, by simp⟩
    rcases i with _ | i <;> simp [State.addRuntime, State.allocate, State.addRegistry,
      State.registry] at mem
  routes := by
    have only (id : RuntimeId) (inside : id < 1) : id = 0 := Nat.lt_one_iff.mp inside
    refine ⟨Nat.zero_lt_one, fun id inside => ?_, fun _ _ => rfl⟩
    obtain rfl := only id inside
    exact ⟨rfl, Nat.zero_lt_one, fun ne => absurd rfl ne⟩
  replied := by simp

/-- Another runner of the same runtime goes on after a new journal was begun. -/
theorem begun (serving : Serving hosted runner state replies) {other : Runner}
    (same : other.runtime = runner.runtime) {after : State} {notes : List Note}
    (begun : State.Begun runner.runtime state after notes) (sound : after.Sound hosted)
    (valid : other.Valid hosted after) {new : List Reply}
    (replied : ∀ reply ∈ new, reply.result.journal = state.journals ∧
      reply.Delivered runner.runtime after) :
    Serving hosted other after (replies ++ new) := by
  have given : state.journals < after.journals :=
    begun.own ▸ (begun.routes.feeds runner.runtime begun.routes.top_lt).given
  refine ⟨sound, valid, same ▸ begun.routes, fun reply mem => ?_⟩
  rw [same]
  rcases List.mem_append.mp mem with early | late
  · obtain ⟨old, delivered⟩ := serving.replied reply early
    exact ⟨Nat.lt_trans old given, delivered.kept (begun.kept _ (Nat.ne_of_lt old))⟩
  · obtain ⟨journal, delivered⟩ := replied reply late
    exact ⟨journal ▸ given, delivered⟩

theorem call (serving : Serving hosted runner state replies) (settings : Settings) (depth : Nat)
    (request : Request) :
    Serving hosted (runner.call settings depth state request).1.1
      (runner.call settings depth state request).2
      (replies ++ runner.replies settings depth state request) := by
  have sound := serving.sound
  have valid := serving.valid
  have routes := serving.routes
  unfold Runner.replies
  rcases call_cases settings depth runner state request with
    ⟨other, place, script, same, modules, called, moments⟩ |
    ⟨moments, ⟨reason, called⟩ | ⟨report, called⟩⟩
  · have valid' : other.Valid hosted state := ⟨same ▸ valid.runtime, modules ▸ valid.modules⟩
    have routes' : state.Routes other.runtime := same ▸ routes
    obtain ⟨notes, begun, gave⟩ := runFrom_begun sound valid' routes' settings depth place script
    rw [called, moments]
    refine serving.begun same (same ▸ begun) (valid'.sound_runFrom sound settings depth place
      script) (valid'.runFrom sound settings depth place script) fun reply mem => ?_
    cases ended : (other.runFrom depth place script settings state).1 with
    | ok result =>
        simp only [ended] at mem
        obtain rfl := List.mem_singleton.mp mem
        exact ⟨(gave result ended).1, same ▸ runFrom_delivered sound valid' routes' place ended⟩
    | error reason =>
        simp only [ended] at mem
        cases mem
  · rw [called, List.append_nil]
    exact serving
  · have begun := (State.Begun.renewJournal routes).note ⟨.error, report.message⟩
    have own := (State.Begun.renewJournal routes).own
    rw [called, moments]
    refine serving.begun rfl begun ((State.sound_renewJournal sound valid.runtime).record _)
      ((valid.renewJournal _).note _ _) fun reply mem => ?_
    obtain rfl := List.mem_singleton.mp mem
    refine ⟨own, .nil, fun p mem => absurd mem List.not_mem_nil, ?_⟩
    simp only [own]
    exact begun.notes

theorem change (serving : Serving hosted runner state replies) {c : Change}
    (safe : c.Safe hosted state) (ofHost : c.OfHost) :
    Serving hosted runner (c.apply state) replies := by
  obtain ⟨sound, valid, routes, replied⟩ := serving
  have grows := c.apply_grows state
  have owned : c.Owned state := by
    cases c with
    | addRuntime importer directory => exact safe
    | print _ _ => exact ofHost.elim
    | _ => trivial
  have silent : Moment.note? ⟨0, [], state, .change c⟩ = none := by
    cases c with
    | print _ _ => exact ofHost.elim
    | _ => rfl
  have routed : Moment.Routed runner.runtime ⟨0, [], state, .change c⟩ :=
    Moment.routed routes (by rintro _ ⟨⟩; exact owned)
  have journal (j : JournalId) : (c.apply state).journal j = state.journal j := by
    have added := routed.journal j
    rw [silent, Option.toList_none, ite_self, List.append_nil] at added
    exact added
  have own : (c.apply state).MadeByHost runner.runtime := by
    refine ⟨Nat.lt_of_lt_of_le valid.runtime.runtime_lt grows.runtimes, fun i entry mem => ?_⟩
    rw [(grows.runtime _ valid.runtime.runtime_lt).root]
    rcases Change.mem_loaded mem with before | ⟨runtime, rfl⟩
    · exact valid.runtime.root_ne i entry before
    · exact ofHost.elim
  refine ⟨safe.sound sound, ⟨own, fun entry mem => ?_⟩, routed.routes, fun reply mem => ?_⟩
  · obtain ⟨hosts, source⟩ := valid.modules entry mem
    exact ⟨hosts, source.mono (grows.within hosted)⟩
  · obtain ⟨given, delivered⟩ := replied reply mem
    exact ⟨Nat.lt_of_lt_of_le given routed.journals, delivered.kept (journal _)⟩

end Serving

end Runner

/-- Of a host with one runtime: no other runtime has anything in its journal, and all replies to the
calls so far were delivered. -/
theorem History.delivered {hosted : Bool} {runner : Runner} {state : State} {replies : List Reply}
    (history : History hosted runner state replies) :
    (∀ id, id < state.runtimes.size → id ≠ runner.runtime →
      state.journal (state.runtime id).journal = []) ∧
    ∀ reply ∈ replies, reply.Delivered runner.runtime state := by
  have serving : runner.Serving hosted state replies := by
    induction history with
    | start directory reports => exact .start hosted directory reports
    | change c _ _ safe ofHost ih => exact ih.change safe ofHost
    | equip modules _ valid ih => exact ⟨ih.sound, ⟨ih.valid.runtime, valid⟩, ih.routes, ih.replied⟩
    | call settings depth request _ ih => exact ih.call settings depth request
  exact ⟨fun id inside ne => ((serving.routes.feeds id inside).apart ne).2,
    fun reply mem => (serving.replied reply mem).2⟩

/-- A file with a function `f` that prints. -/
def Files.printing : Files := .ofLines [("lib.yaml", [
  "type: FunctionCall",
  "name: def",
  "parameters:",
  "- type: MemoryLiteral",
  "  value: f",
  "yieldFunction:",
  "  type: FunctionCall",
  "  name: print",
  "  parameters:",
  "  - type: StringLiteral",
  "    value: hi"])]

/-- The first call loads the file and calls its function. In the second call the function of the
loaded file prints to the new journal, and the journal of the first call stays as it was. -/
theorem History.delivered_loaded :
    let settings : Settings := .quiet .printing
    let again : Node := .program [.call "./lib.f" [] .absent {}, .call "nope" [] .absent {}] {}
    let first := Runner.main.call settings 14 State.fresh (.script (.program .callOfModule))
    let state := (Runner.main.call settings 14 first.2 (.script (.program again))).2
    let message := "ReferenceError: Unknown value or function \"nope\".\nAt nope()\n" ++
      "bean stacktrace: (nope)"
    ∃ one two : Reply, one.Delivered 0 state ∧ two.Delivered 0 state ∧
      state.journal one.result.journal = [⟨.output, "hi"⟩] ∧
      state.journal two.result.journal = [⟨.output, "hi"⟩, ⟨.error, message⟩] := by
  intro settings again first state message
  let replies := Runner.main.replies settings 14 State.fresh (.script (.program .callOfModule))
  let replies' := Runner.main.replies settings 14 first.2 (.script (.program again))
  have history : History false Runner.main state (([] ++ replies) ++ replies') :=
    ((History.start none true).call settings 14 (.script (.program .callOfModule))).call settings 14
      (.script (.program again))
  have delivered := (History.delivered history).2
  -- One evaluation gives all four, since each of them would read the file again.
  have computed : (replies.map (·.result.journal), replies'.map (·.result.journal),
      state.journal 1, state.journal 3) =
        ([1], [3], [⟨.output, "hi"⟩], [⟨.output, "hi"⟩, ⟨.error, message⟩]) := by decide +kernel
  simp only [Prod.mk.injEq] at computed
  obtain ⟨given, given', notes, notes'⟩ := computed
  obtain ⟨one, eq, journal⟩ := List.map_eq_singleton_iff.mp given
  obtain ⟨two, eq', journal'⟩ := List.map_eq_singleton_iff.mp given'
  exact ⟨one, two, delivered one (by simp [eq]), delivered two (by simp [eq']),
    journal ▸ notes, journal' ▸ notes'⟩

end TreeScript
