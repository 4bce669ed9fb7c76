import TreeScript.Proofs.Session

/-!
# When errors are reported

A fatal error is reported where it arises. Whatever ends an evaluation early does so at one moment,
and after it frames are left and nothing else is done. So the report of an error is the last thing
that can be seen of a run, and nothing else in a run is a report.
-/

namespace TreeScript

/-- The report of a fatal error. -/
def Event.isReport : Event → Bool
  | reported .. => true
  | _ => false

/-- Nothing was reported in between. -/
def State.Quiet (before after : State) : Prop :=
  ∃ events, after.log = events ++ before.log ∧ ∀ event ∈ events, event.isReport = false

namespace State

protected theorem Quiet.refl (state : State) : state.Quiet state := ⟨[], rfl, by simp⟩

protected theorem Quiet.trans {a b c : State} (first : a.Quiet b) (second : b.Quiet c) :
    a.Quiet c := by
  obtain ⟨xs, hxs, quiet⟩ := first
  obtain ⟨ys, hys, quiet'⟩ := second
  exact ⟨ys ++ xs, by rw [hys, hxs, List.append_assoc],
    List.forall_mem_append.mpr ⟨quiet', quiet⟩⟩

theorem quiet_of_log {before after : State} (h : after.log = before.log) : before.Quiet after :=
  ⟨[], h, by simp⟩

theorem quiet_record (state : State) {event : Event} (h : event.isReport = false) :
    state.Quiet (state.record event) :=
  ⟨[event], rfl, by simpa using h⟩

theorem quiet_print (state : State) (runtime : RuntimeId) (text : String) :
    state.Quiet (state.print runtime text) := by
  unfold State.print
  split
  · exact state.quiet_record rfl
  · exact state.quiet_record rfl

end State

/-- No change is a report. -/
theorem Change.apply_quiet (state : State) (c : Change) : state.Quiet (c.apply state) := by
  cases c with
  | print runtime text => exact state.quiet_print runtime text
  | trace _ | begin _ | finish _ | runFactory _ => exact state.quiet_record rfl
  | register registry name source =>
      simp only [Change.apply]
      split <;> exact .refl state
  | _ => exact .refl state

theorem Frame.log_leave (state : State) (frame : Frame) : (frame.leave state).log = state.log := by
  cases frame <;> rfl

/-- Only an error is reported. -/
theorem Moment.quiet {moment : Moment} (h : ∀ error, moment.reason? ≠ some (.error error)) :
    moment.state.Quiet moment.nextState := by
  obtain ⟨depth, frames, state, deed⟩ := moment
  cases deed with
  | fail runtime cause node => exact absurd rfl (h _)
  | change c => exact c.apply_quiet state
  | enter frame => exact State.quiet_of_log (by cases frame <;> rfl)
  | leave frame => exact State.quiet_of_log (frame.log_leave state)
  | visit _ _ _ | halt _ => exact .refl state

namespace Linked

variable {frames frames' : List Frame} {state state' : State} {xs ys : List Moment}

/-- There is a state between the moments before and those after. -/
theorem split (linked : Linked frames state (xs ++ ys) frames' state') :
    ∃ between middle, Linked frames state xs between middle ∧
      Linked between middle ys frames' state' := by
  induction xs generalizing frames state with
  | nil => exact ⟨frames, state, .nil .., linked⟩
  | cons moment rest ih =>
      cases linked with
      | cons _ linked =>
          obtain ⟨between, middle, first, second⟩ := ih linked
          exact ⟨between, middle, .cons moment first, second⟩

theorem quiet (linked : Linked frames state xs frames' state')
    (h : ∀ m ∈ xs, ∀ error, m.reason? ≠ some (.error error)) : state.Quiet state' :=
  (linked.related .refl .trans fun m mem => m.quiet (h m mem)).1

/-- Nothing can be seen while frames are left. -/
theorem log_of_leaving (linked : Linked frames state xs frames' state')
    (leaving : ∀ m ∈ xs, ∃ frame, m.deed = .leave frame) : state'.log = state.log := by
  refine (linked.related (R := fun a b => b.log = a.log) (fun _ => rfl)
    (fun first second => second.trans first) fun m mem => ?_).1
  obtain ⟨frame, left⟩ := leaving m mem
  simp only [Moment.nextState, left, frame.log_leave]

end Linked

/-! ### Who reports -/

/-- Every runtime reports its errors. -/
def State.Reports (state : State) : Prop :=
  ∀ id, id < state.runtimes.size → (state.runtime id).reports = true

/-- A module reports where its importer does. -/
theorem State.Reports.change {hosted : Bool} {state : State} (reports : state.Reports) {c : Change}
    (safe : c.Safe hosted state) : (c.apply state).Reports := by
  intro id inside
  by_cases old : id < state.runtimes.size
  · rw [((c.apply_grows state).runtime id old).reports]
    exact reports id old
  · rcases c.size_runtimes state with same | ⟨importer, directory, rfl⟩
    · exact absurd (same ▸ inside) old
    · rw [Change.size_addRuntime] at inside
      obtain rfl := Nat.le_antisymm (Nat.le_of_lt_succ inside) (Nat.le_of_not_lt old)
      rw [Change.runtime_addRuntime]
      exact reports importer safe

theorem Frame.size_enter (state : State) (frame : Frame) :
    (frame.enter state).runtimes.size = state.runtimes.size := by
  cases frame with
  | call runtime node => exact state.size_modifyRuntime ..
  | builtin _ | loading _ _ => rfl

theorem Frame.size_leave (state : State) (frame : Frame) :
    (frame.leave state).runtimes.size = state.runtimes.size := by
  cases frame with
  | call runtime node => exact state.size_modifyRuntime ..
  | builtin _ | loading _ _ => rfl

/-- Where no runtime is added, every runtime goes on to report. -/
theorem State.Reports.of_size {before after : State} (reports : before.Reports)
    (grows : before.Grows after) (size : after.runtimes.size = before.runtimes.size) :
    after.Reports := by
  intro id inside
  rw [size] at inside
  rw [(grows.runtime id inside).reports]
  exact reports id inside

theorem State.Reports.next {hosted : Bool} {first : Nat} {moment : Moment}
    (reports : moment.state.Reports)
    (proper : moment.deed.Proper hosted first moment.frames moment.state) :
    moment.nextState.Reports := by
  have grows := moment.grows
  obtain ⟨depth, frames, state, deed⟩ := moment
  cases deed with
  | change c => exact reports.change proper.2.1
  | enter frame => exact reports.of_size grows (frame.size_enter state)
  | leave frame => exact reports.of_size grows (frame.size_leave state)
  | fail runtime cause node =>
      refine reports.of_size grows ?_
      simp only [Moment.nextState, State.reportError]
      split <;> rfl
  | visit _ _ _ | halt _ => exact reports

/-! ### Runs -/

/-- What is reported of the end of an evaluation. -/
def reportOf : Option Interrupt → List Event
  | some (.error error) => [.reported error.cause.kind error.cause.message]
  | _ => []

/-- The moment at which an evaluation ends early adds a report to the log and nothing else, and that
only if it is for an error. -/
theorem Moment.log_of_reason {first : Nat} {moment : Moment} (reports : moment.state.Reports)
    (proper : moment.deed.Proper false first moment.frames moment.state) {reason : Interrupt}
    (h : moment.reason? = some reason) :
    moment.nextState.log = reportOf (some reason) ++ moment.state.log := by
  obtain ⟨depth, frames, state, deed⟩ := moment
  cases deed with
  | fail runtime cause node =>
      cases h
      have reports : (state.runtime runtime).reports = true := reports runtime proper.2.1
      simp only [nextState, State.reportError, reports, if_true]
      rfl
  | halt why =>
      cases h
      cases reason with
      | error error => exact absurd rfl (proper.2 rfl error)
      | failure _ | tooDeep => rfl
  | visit runtime object context =>
      cases depth with
      | zero =>
          cases h
          rfl
      | succ depth => cases h
  | change _ | enter _ | leave _ => cases h

/-- An evaluation adds to the log what is no report and at last the report of its error, if it ends
with one. -/
theorem Linked.log_eq {first : Nat} {frames frames' : List Frame} {state state' : State}
    {moments : List Moment} {reason : Option Interrupt}
    (linked : Linked frames state moments frames' state') (ends : EndsFor reason moments)
    (proper : ∀ m ∈ moments, m.deed.Proper false first m.frames m.state)
    (reports : ∀ m ∈ moments, m.state.Reports) :
    ∃ events, (∀ event ∈ events, event.isReport = false) ∧
      state'.log = reportOf reason ++ (events ++ state.log) := by
  cases reason with
  | none =>
      obtain ⟨events, log, quiet⟩ := linked.quiet fun m mem error h => by simp [ends m mem] at h
      exact ⟨events, quiet, log⟩
  | some reason =>
      obtain ⟨before, last, after, rfl, found, early, leaving⟩ := ends
      obtain ⟨between, middle, first, rest⟩ := linked.split
      obtain ⟨events, log, quiet⟩ := first.quiet fun m mem error h => by simp [early m mem] at h
      have mem : last ∈ before ++ last :: after := by simp
      cases rest with
      | cons _ rest =>
          refine ⟨events, quiet, ?_⟩
          rw [rest.log_of_leaving leaving,
            Moment.log_of_reason (reports last mem) (proper last mem) found, log]

namespace Runner

variable {settings : Settings} {depth : Nat} {runner : Runner} {place : Option Place}
variable {program : Node} {state : State}

/-- Let every runtime report its errors, which then those do as well that come in a run. A run
without a host that ends with an error reports it once, and nothing can be seen after that. A run
that ends in any other way reports nothing. -/
theorem history_eq_report_last (session : Session false state) (valid : runner.Valid false state)
    (reports : state.Reports) :
    (runner.evaluateProgram depth place program settings state).2.Reports ∧
      ∃ events, (∀ event ∈ events, event.isReport = false) ∧
        (runner.evaluateProgram depth place program settings state).2.history =
          state.history ++ events ++
            reportOf (interruptOf?
              (runner.evaluateProgram depth place program settings state).1) := by
  have proper := (run_sound settings session.sound valid depth place program).proper
  have linked := runner.moments_linked settings depth place program state
  have ends := (runner.programRule place program).moments_endsFor settings depth [] state
  obtain ⟨final, reports⟩ := linked.invariant (P := fun _ state => state.Reports)
    (fun m mem reports => reports.next (proper m mem)) reports
  obtain ⟨events, quiet, log⟩ := linked.log_eq ends proper reports
  refine ⟨final, events.reverse, by simpa using quiet, ?_⟩
  have once (reason : Option Interrupt) : (reportOf reason).reverse = reportOf reason := by
    unfold reportOf
    split <;> rfl
  simp only [State.history, log, List.reverse_append, once]
  rfl

/-- `print("a")` prints, and `add()` reports its error. -/
theorem history_eq_report_last_add :
    let program : Node := .program [.call "print" [.text "a" {}] .absent {},
      .call "add" [] .absent {}] {}
    ∃ events, (∀ event ∈ events, event.isReport = false) ∧
      (Runner.main.evaluateProgram 12 none program (.quiet .empty) State.fresh).2.history =
        State.fresh.history ++ events ++ [.reported .type "Nothing to add."] := by
  intro program
  have reports : State.fresh.Reports := fun id inside => by
    obtain rfl : id = 0 := Nat.lt_one_iff.mp inside
    rfl
  have report : reportOf (interruptOf?
      (Runner.main.evaluateProgram 12 none program (.quiet .empty) State.fresh).1) =
        [.reported .type "Nothing to add."] := by decide +kernel
  rw [← report]
  exact (history_eq_report_last (Session.fresh false) (Runner.main_valid false) reports).2

end Runner

end TreeScript
