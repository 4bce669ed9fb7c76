import TreeScript.Proofs.Printing

/-!
# Journals

A journal is a part of the one log that all runtimes share. During an evaluation nothing is noted
but the texts that are printed, and every runtime that an evaluation adds prints where its importer
does. So if all runtimes print to the journal of one of them, then they go on doing so, and that
journal gets the texts in the order in which they are printed. No other journal gets anything.
-/

namespace TreeScript

namespace State

/-- A journal gets what is noted under its number, last of all. -/
theorem journal_note (state : State) (id : RuntimeId) (note : Note) (j : JournalId) :
    (state.note id note).journal j =
      state.journal j ++ if (state.runtime id).journal = j then [note] else [] := by
  simp only [journal, history, State.note, record, List.reverse_cons, List.filterMap_append,
    List.filterMap_cons, List.filterMap_nil]
  split <;> rename_i found <;> split at found <;> simp_all

/-- Other events are in no journal. -/
theorem journal_record (state : State) {event : Event}
    (other : ∀ owner note, event ≠ .noted owner note) (j : JournalId) :
    (state.record event).journal j = state.journal j := by
  cases event <;> simp_all [journal, history, record]

theorem runtime_renewJournal_self (state : State) {id : RuntimeId}
    (h : id < state.runtimes.size) :
    (state.renewJournal id).runtime id = { state.runtime id with journal := state.journals } := by
  change (state.modifyRuntime id fun r => { r with journal := state.journals }).runtime id = _
  exact state.runtime_modifyRuntime_self _ h

theorem runtime_renewJournal_of_ne (state : State) {id other : RuntimeId} (h : other ≠ id) :
    (state.renewJournal id).runtime other = state.runtime other := by
  change (state.modifyRuntime id fun r => { r with journal := state.journals }).runtime other = _
  exact state.runtime_modifyRuntime_of_ne _ h

@[simp] theorem size_renewJournal (state : State) (id : RuntimeId) :
    (state.renewJournal id).runtimes.size = state.runtimes.size := by
  simp [renewJournal]

/-! ### Silence -/

/-- From the one state to the other nothing is noted. The runtimes are the same, and so is where
each of them prints and which journal it has. -/
structure Silent (before after : State) : Prop where
  size : after.runtimes.size = before.runtimes.size
  output : ∀ id, (after.runtime id).output = (before.runtime id).output
  own : ∀ id, (after.runtime id).journal = (before.runtime id).journal
  journals : after.journals = before.journals
  journal : ∀ j, after.journal j = before.journal j

theorem Silent.same {before after : State} (runtimes : after.runtimes = before.runtimes)
    (journals : after.journals = before.journals) (log : after.log = before.log) :
    before.Silent after where
  size := congrArg Array.size runtimes
  output id := by rw [State.runtime, State.runtime, runtimes]
  own id := by rw [State.runtime, State.runtime, runtimes]
  journals := journals
  journal j := by rw [State.journal, State.journal, history, history, log]

theorem silent_modifyRuntime (state : State) (id : RuntimeId) {change : Runtime → Runtime}
    (output : ∀ runtime : Runtime, (change runtime).output = runtime.output)
    (own : ∀ runtime : Runtime, (change runtime).journal = runtime.journal) :
    state.Silent (state.modifyRuntime id change) where
  size := state.size_modifyRuntime ..
  output := state.view_modifyRuntime Runtime.output id output
  own := state.view_modifyRuntime Runtime.journal id own
  journals := rfl
  journal _ := rfl

theorem silent_record (state : State) {event : Event}
    (other : ∀ owner note, event ≠ .noted owner note) : state.Silent (state.record event) :=
  ⟨rfl, fun _ => rfl, fun _ => rfl, rfl, state.journal_record other⟩

end State

/-- A moment is silent unless a runtime is added or a text is printed. -/
theorem Moment.silent (moment : Moment)
    (adds : ∀ importer directory, moment.deed ≠ .change (.addRuntime importer directory))
    (prints : ∀ runtime text, moment.deed ≠ .change (.print runtime text)) :
    moment.state.Silent moment.nextState := by
  obtain ⟨depth, frames, state, deed⟩ := moment
  cases deed with
  | visit _ _ _ | halt _ => exact .same rfl rfl rfl
  | change c =>
      cases c with
      | addRuntime importer directory => exact absurd rfl (adds importer directory)
      | print runtime text => exact absurd rfl (prints runtime text)
      | visit runtime node =>
          simp only [nextState, Change.apply]
          exact state.silent_modifyRuntime runtime (fun _ => rfl) fun _ => rfl
      | register registry name source =>
          simp only [nextState, Change.apply]
          split <;> exact .same rfl rfl rfl
      | trace _ | begin _ | finish _ | runFactory _ => exact state.silent_record (by simp)
      | _ => exact .same rfl rfl rfl
  | enter frame | leave frame =>
      cases frame with
      | call runtime node =>
          simp only [nextState, Frame.enter, Frame.leave]
          exact state.silent_modifyRuntime runtime (fun _ => rfl) fun _ => rfl
      | builtin _ | loading _ _ => exact .same rfl rfl rfl
  | fail runtime cause node =>
      simp only [nextState, State.reportError]
      split
      · exact state.silent_record (by simp)
      · exact .same rfl rfl rfl

/-! ### One journal for all runtimes -/

/-- A runtime prints to the journal of one runtime. If it is another one, then it has a journal of
its own, which is empty. -/
structure State.Feeds (top : RuntimeId) (state : State) (id : RuntimeId) : Prop where
  output : (state.runtime id).output = .journal top
  given : (state.runtime id).journal < state.journals
  apart : id ≠ top → (state.runtime id).journal ≠ (state.runtime top).journal ∧
    state.journal (state.runtime id).journal = []

/-- All runtimes print to the journal of one of them, and the journals that are still to be given
out are empty. -/
structure State.Routes (top : RuntimeId) (state : State) : Prop where
  top_lt : top < state.runtimes.size
  feeds : ∀ id, id < state.runtimes.size → state.Feeds top id
  unused : ∀ j, state.journals ≤ j → state.journal j = []

namespace State.Routes

variable {top : RuntimeId} {state after : State}

theorem silent (routes : state.Routes top) (silent : state.Silent after) : after.Routes top where
  top_lt := silent.size ▸ routes.top_lt
  feeds id inside := by
    obtain ⟨output, given, apart⟩ := routes.feeds id (silent.size ▸ inside)
    refine ⟨(silent.output id).trans output, ?_, fun ne => ?_⟩
    · rw [silent.own, silent.journals]
      exact given
    · rw [silent.own, silent.own, silent.journal]
      exact apart ne
  unused j unused := by
    rw [silent.journal]
    exact routes.unused j (silent.journals ▸ unused)

/-- A new runtime prints where its importer does and has a new journal. -/
theorem addRuntime (routes : state.Routes top) {importer : RuntimeId}
    (inside : importer < state.runtimes.size) (directory : Place) :
    ((Change.addRuntime importer directory).apply state).Routes top := by
  have size := Change.size_addRuntime state importer directory
  have new := Change.runtime_addRuntime state importer directory
  have old (id : RuntimeId) (h : id < state.runtimes.size) :
      ((Change.addRuntime importer directory).apply state).runtime id = state.runtime id :=
    state.runtime_addRuntime_of_lt _ _ _ _ h
  have own := (routes.feeds top routes.top_lt).given
  refine ⟨?_, fun id h => ?_, fun j unused => routes.unused j (Nat.le_of_succ_le unused)⟩
  · rw [size]
    exact Nat.lt_succ_of_lt routes.top_lt
  · rcases Nat.lt_succ_iff_lt_or_eq.mp (Nat.lt_of_lt_of_eq h size) with before | rfl
    · obtain ⟨output, given, apart⟩ := routes.feeds id before
      rw [← old id before] at output given apart
      rw [← old top routes.top_lt] at apart
      exact ⟨output, Nat.lt_succ_of_lt given, apart⟩
    · refine ⟨?_, ?_, fun _ => ?_⟩
      · rw [new]
        exact (routes.feeds importer inside).output
      · rw [new]
        exact Nat.lt_succ_self _
      · rw [new, old top routes.top_lt]
        exact ⟨Nat.ne_of_gt own, routes.unused state.journals (Nat.le_refl _)⟩

/-- What is noted in the journal of the one runtime is in no other journal. -/
theorem note (routes : state.Routes top) (note : Note) : (state.note top note).Routes top where
  top_lt := routes.top_lt
  feeds id inside := by
    obtain ⟨output, given, apart⟩ := routes.feeds id inside
    refine ⟨output, given, fun ne => ⟨(apart ne).1, ?_⟩⟩
    have other : (state.runtime top).journal ≠ ((state.note top note).runtime id).journal :=
      (apart ne).1.symm
    rw [journal_note, if_neg other, List.append_nil]
    exact (apart ne).2
  unused j unused := by
    have given := (routes.feeds top routes.top_lt).given
    have other : (state.runtime top).journal ≠ j := Nat.ne_of_lt (Nat.lt_of_lt_of_le given unused)
    rw [journal_note, if_neg other, List.append_nil]
    exact routes.unused j unused

/-- Whichever runtime prints, the text goes to the journal of the one. -/
theorem print_eq (routes : state.Routes top) {id : RuntimeId} (inside : id < state.runtimes.size)
    (text : String) : state.print id text = state.note top ⟨.output, text⟩ := by
  unfold State.print
  rw [(routes.feeds id inside).output]

/-- The one runtime may get a new journal. -/
theorem renewJournal (routes : state.Routes top) : (state.renewJournal top).Routes top := by
  have own := state.runtime_renewJournal_self routes.top_lt
  refine ⟨?_, fun id h => ?_, fun j unused => routes.unused j (Nat.le_of_succ_le unused)⟩
  · rw [state.size_renewJournal]
    exact routes.top_lt
  · rw [state.size_renewJournal] at h
    obtain ⟨output, given, apart⟩ := routes.feeds id h
    by_cases same : id = top
    · subst same
      refine ⟨?_, ?_, fun ne => absurd rfl ne⟩
      · rw [own]
        exact output
      · rw [own]
        exact Nat.lt_succ_self _
    · have other := state.runtime_renewJournal_of_ne same
      refine ⟨?_, ?_, fun ne => ?_⟩
      · rw [other]
        exact output
      · rw [other]
        exact Nat.lt_succ_of_lt given
      · rw [other, own]
        exact ⟨Nat.ne_of_lt given, (apart ne).2⟩

end State.Routes

/-! ### Runs -/

/-- What adds a runtime or prints is a runtime that exists. -/
def Change.Owned (state : State) : Change → Prop
  | addRuntime importer _ => importer < state.runtimes.size
  | print runtime _ => runtime < state.runtimes.size
  | _ => True

/-- The note that is made of a text that is printed. -/
def Moment.note? (moment : Moment) : Option Note :=
  moment.printed?.map fun printed => ⟨.output, printed.2⟩

variable {top : RuntimeId}

/-- A moment at which all runtimes print to the journal of one of them: it leaves that so, and the
text that is printed, if there is one, goes to this journal and to no other. -/
structure Moment.Routed (top : RuntimeId) (moment : Moment) : Prop where
  routes : moment.nextState.Routes top
  journals : moment.state.journals ≤ moment.nextState.journals
  journal : ∀ j, moment.nextState.journal j = moment.state.journal j ++
    if (moment.state.runtime top).journal = j then moment.note?.toList else []

theorem Moment.Routed.of_silent {moment : Moment} (routes : moment.state.Routes top)
    (silent : moment.state.Silent moment.nextState) (none : moment.note? = none) :
    moment.Routed top :=
  ⟨routes.silent silent, Nat.le_of_eq silent.journals.symm,
    fun j => by simp [none, silent.journal]⟩

theorem Moment.routed {moment : Moment} (routes : moment.state.Routes top)
    (owned : ∀ c, moment.deed = .change c → c.Owned moment.state) : moment.Routed top := by
  obtain ⟨depth, frames, state, deed⟩ := moment
  cases deed with
  | change c =>
      cases c with
      | addRuntime importer directory =>
          refine ⟨routes.addRuntime (owned _ rfl) directory, Nat.le_succ _, fun j => ?_⟩
          simp only [note?, printed?, Option.map_none, Option.toList_none, ite_self,
            List.append_nil]
          rfl
      | print id text =>
          have noted : Moment.nextState ⟨depth, frames, state, .change (.print id text)⟩ =
              state.note top ⟨.output, text⟩ := routes.print_eq (owned _ rfl) text
          constructor
          · rw [noted]
            exact routes.note _
          · rw [noted]
            exact Nat.le_refl _
          · rw [noted]
            exact state.journal_note top _
      | _ => exact .of_silent routes (Moment.silent _ (by simp) (by simp)) rfl
  | _ => exact .of_silent routes (Moment.silent _ (by simp) (by simp)) rfl

/-- Over a run, the texts that are printed go to the journal of the one runtime in their order, and
to no other journal. -/
theorem Linked.routes {frames frames' : List Frame} {state after : State} {moments : List Moment}
    (linked : Linked frames state moments frames' after) (routes : state.Routes top)
    (owned : ∀ m ∈ moments, ∀ c, m.deed = .change c → c.Owned m.state) :
    (after.Routes top ∧ (after.runtime top).journal = (state.runtime top).journal) ∧
    (∀ m ∈ moments, m.state.Routes top ∧
      (m.state.runtime top).journal = (state.runtime top).journal) ∧
    ∀ j, after.journal j = state.journal j ++
      if (state.runtime top).journal = j then moments.filterMap Moment.note? else [] := by
  obtain ⟨final, middle⟩ := linked.invariant
    (P := fun _ s => s.Routes top ∧ (s.runtime top).journal = (state.runtime top).journal)
    (fun m mem known => ⟨(Moment.routed known.1 (owned m mem)).routes,
      (m.grows.runtime top known.1.top_lt).journal.trans known.2⟩)
    ⟨routes, rfl⟩
  refine ⟨final, middle, fun j => ?_⟩
  have step (m : Moment) (mem : m ∈ moments) : m.nextState.journal j = m.state.journal j ++
      if (state.runtime top).journal = j then m.note?.toList else [] := by
    rw [(Moment.routed (middle m mem).1 (owned m mem)).journal j, (middle m mem).2]
  by_cases own : (state.runtime top).journal = j
  · simp only [if_pos own] at step ⊢
    exact linked.appended (fun state => state.journal j) Moment.note? step
  · simp only [if_neg own, List.append_nil] at step ⊢
    exact (linked.related (R := fun a b => b.journal j = a.journal j) (fun _ => rfl)
      (fun first second => second.trans first) step).1

/-- In every run, what adds a runtime or prints is a runtime that exists. -/
theorem Runner.run_owned {hosted : Bool} {state : State} (sound : state.Sound hosted)
    {runner : Runner} (valid : runner.Valid hosted state) (settings : Settings) (depth : Nat)
    (place : Option Place) (program : Node) :
    ∀ p ∈ runner.moments settings depth place program state, ∀ c, p.deed = .change c →
      c.Owned p.state := by
  intro p mem c deed
  have run := Runner.run_sound settings sound valid depth place program
  have proper := run.proper p mem
  rw [deed] at proper
  cases c with
  | addRuntime importer directory => exact proper.2.1
  | print owner text =>
      -- A text is printed by the runtime of a builtin, which was there when that was entered.
      have printed := Moment.printed?_eq_some.mpr deed
      obtain ⟨front, rest, split⟩ := List.append_of_mem mem
      have executions := Runner.run_executions sound valid settings depth place program
      obtain ⟨before, m, inner, invocation, said, eq, printing⟩ :=
        executions.printed front p rest split (by simp [printed])
      have memM : m ∈ runner.moments settings depth place program state := by
        rw [split, eq]
        simp
      have entered := run.proper m memM
      rw [printing.enters] at entered
      have within : p ∈ invocation.rule.moments settings m.depth (.builtin invocation :: m.frames)
          m.state := by
        rw [printing.moments]
        simp
      have grows := ((invocation.rule.moments_linked settings m.depth
        (.builtin invocation :: m.frames) m.state).grows.2 p within).1
      obtain ⟨rfl, rfl⟩ := Prod.mk.inj (Option.some.inj (printed.symm.trans printing.prints))
      exact Nat.lt_of_lt_of_le entered.2.1.runtime_lt grows.runtimes
  | _ => trivial

end TreeScript
