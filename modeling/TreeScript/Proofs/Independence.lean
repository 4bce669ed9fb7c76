import TreeScript.Proofs.ImportFree
import TreeScript.Proofs.TwinEvaluation

/-!
# Runs do not depend on earlier ones

Blocks without imports leave nothing to a runtime but scopes to which its root does not lead. So the
state before a run is a new one under other names, with further scopes in it, and the run ends like
one in a new runtime. What a host sees of a run has no names of scopes and no marks of trees: it is
the same in both.
-/

namespace TreeScript

open Rule

/-! ### Reports under other names -/

namespace Interrupt

variable {r : Renaming}

@[simp] theorem kind?_rename (reason : Interrupt) : (reason.rename r).kind? = reason.kind? := by
  cases reason <;> rfl

@[simp] theorem headline_rename (reason : Interrupt) :
    (reason.rename r).headline = reason.headline := by
  cases reason <;> rfl

@[simp] theorem trace_rename (reason : Interrupt) : (reason.rename r).trace = reason.trace := by
  cases reason <;> rfl

@[simp] theorem node_rename (current : Node) (reason : Interrupt) :
    (reason.rename r).node (current.rename r) = (reason.node current).rename r := by
  cases reason with
  | error fatal =>
      obtain ⟨cause, node, trace⟩ := fatal
      cases node <;> rfl
  | failure _ | tooDeep => rfl

theorem shownCall?_rename (current : Node) (reason : Interrupt) :
    (reason.rename r).shownCall? (current.rename r) =
      (reason.shownCall? current).map (·.rename r) := by
  have about := node_rename (r := r) current reason
  cases reason with
  | tooDeep => rfl
  | error _ | failure _ =>
      simp only [rename] at about
      simp only [rename, shownCall?, about]
      generalize Interrupt.node current _ = node
      cases node <;> rfl

/-- A report does not show names. -/
theorem report_rename (room : Nat) (current : Node) (reason : Interrupt) :
    (reason.rename r).report room (current.rename r) = reason.report room current := by
  unfold report
  rw [shownCall?_rename]
  cases reason.shownCall? current with
  | none => simp
  | some call => simp

end Interrupt

/-! ### A state before a run -/

/-- All scopes but the first get later places, and all trees get later marks. -/
def Renaming.shift (scopes marks : Nat) : Renaming where
  scope
    | 0 => 0
    | id + 1 => id + 1 + scopes
  mark m := m + marks
  scope_injective {i j} same := by
    match i, j with
    | 0, 0 => rfl
    | 0, j + 1 =>
        exact absurd (Nat.eq_zero_of_add_eq_zero_right same.symm) (Nat.succ_ne_zero j)
    | i + 1, 0 => exact absurd (Nat.eq_zero_of_add_eq_zero_right same) (Nat.succ_ne_zero i)
    | i + 1, j + 1 => exact Nat.add_right_cancel same
  mark_injective same := Nat.add_right_cancel same
  le_scope
    | 0 => Nat.le_refl 0
    | id + 1 => Nat.le_add_right (id + 1) scopes

/-- The one runtime is about to evaluate a program. Its root has the builtins and nothing else, no
call is active, and its journal is empty. -/
structure State.Poised (reports : Bool) (state : State) : Prop where
  sound : state.Sound false
  carries : state.Carries Node.ImportFree
  size : state.runtimes.size = 1
  root_eq : (state.runtime 0).root = 0
  root : state.heap.get 0 = { functions := State.builtins 0 }
  output : (state.runtime 0).output = .journal 0
  reports_eq : (state.runtime 0).reports = reports
  calls : (state.runtime 0).calls = []
  notes : state.journal (state.runtime 0).journal = []

variable {reports : Bool} {state : State} {settings : Settings} {runner other : Runner}

/-- Whichever blocks without imports were run before, the next run finds the runtime poised. -/
theorem Served.poised (served : Served Node.IsPlainBlock 0 (State.solo reports) state)
    (runtime : runner.runtime = 0) (modules : runner.modules = []) (settings : Settings) :
    (runner.prepared settings state).Poised reports := by
  obtain ⟨replies, serving⟩ := served.serving runtime modules
  have secluded := served.secluded.prepared settings runner
  have sound : (runner.prepared settings state).Sound false :=
    Runner.sound_prepared serving.sound serving.valid.runtime
  have begun := Runner.begun_prepared serving.routes settings
  rw [runtime] at begun
  obtain ⟨closed, inside, root_eq⟩ := secluded.guarded
  have parent := sound.root_parent 0 inside
  rw [root_eq] at parent
  refine ⟨sound, secluded.carries, closed.runtimes not_false, root_eq, ?_,
    (begun.routes.feeds 0 inside).output, secluded.reports_eq, ?_, ?_⟩
  · have new : (State.solo reports).heap.get 0 = { functions := State.builtins 0 } := rfl
    rw [← new]
    exact closed.kept.eq (by rw [parent, new])
  · have within : 0 < (state.renewJournal 0).runtimes.size := by
      rw [state.size_renewJournal]
      exact runtime ▸ serving.routes.top_lt
    unfold Runner.prepared
    rw [runtime, State.runtime_modifyRuntime_self _ _ within]
  · rw [begun.own]
    exact begun.notes

namespace State

namespace Poised

variable {a b : State}

/-- New marks are given to a program. -/
theorem mark (poised : state.Poised reports) (program : Node) :
    (state.mark program).2.Poised reports where
  sound := by
    have safe : Change.Safe false state (.mark program) := trivial
    exact safe.sound poised.sound
  carries := poised.carries.same rfl rfl rfl
  size := poised.size
  root_eq := poised.root_eq
  root := poised.root
  output := poised.output
  reports_eq := poised.reports_eq
  calls := poised.calls
  notes := poised.notes

theorem root_lt (poised : state.Poised reports) : 0 < state.heap.scopes.size := by
  have inside : 0 < state.runtimes.size := poised.size ▸ Nat.zero_lt_one
  exact Nat.zero_lt_of_lt (poised.sound.root_lt 0 inside)

theorem runtime_of_ne (poised : state.Poised reports) {id : RuntimeId} (other : id ≠ 0) :
    state.runtime id = ⟨0, 0, none, .sink, false, 0, [], .absent⟩ := by
  have outside : state.runtimes.size ≤ id := poised.size ▸ Nat.one_le_iff_ne_zero.mpr other
  simp [runtime, outside]

/-- A heap with the root alone is that of any poised state under other names. -/
theorem heap_alike (new : a.Poised reports) (old : b.Poised reports)
    (alone : a.heap.scopes.size = 1) (marks : Nat) :
    a.heap.Alike (.shift (b.heap.scopes.size - 1) marks) b.heap where
  ordered := new.sound.heap.ordered
  fresh i := by
    rw [alone, Nat.add_comm]
    change i + 1 + (b.heap.scopes.size - 1) = b.heap.scopes.size + i
    rw [Nat.add_assoc, Nat.add_sub_cancel' old.root_lt, Nat.add_comm]
  get id := by
    cases id with
    | zero =>
        change b.heap.get 0 = (a.heap.get 0).rename _
        rw [old.root, new.root]
        simp [Scope.rename, builtins, Table.mapValues, Entry.rename, Object.rename]
    | succ id =>
        have outside : b.heap.scopes.size ≤ id + 1 + (b.heap.scopes.size - 1) := by omega
        have later : a.heap.scopes.size ≤ id + 1 := by omega
        rw [a.heap.get_of_size_le later]
        change b.heap.get (id + 1 + (b.heap.scopes.size - 1)) = _
        rw [b.heap.get_of_size_le outside]
        rfl

/-- Once the one runtime visits a node, two poised states are alike if the first is new. -/
theorem alike_visit (new : a.Poised reports) (old : b.Poised reports)
    (alone : a.heap.scopes.size = 1) (marks : Nat) (node : Node) :
    State.Alike (.shift (b.heap.scopes.size - 1) marks) (Change.apply a (.visit 0 node))
      (Change.apply b (.visit 0 (node.rename (.shift (b.heap.scopes.size - 1) marks)))) := by
  have silent (state : State) (node : Node) :
      state.Silent (Change.apply state (.visit 0 node)) := by
    simp only [Change.apply]
    exact state.silent_modifyRuntime 0 (fun _ => rfl) fun _ => rfl
  constructor
  · exact new.heap_alike old alone marks
  · rw [(silent b _).size, (silent a _).size, new.size, old.size]
  · intro id
    simp only [Change.apply]
    by_cases same : id = 0
    · subst same
      rw [runtime_modifyRuntime_self _ _ (new.size ▸ Nat.zero_lt_one),
        runtime_modifyRuntime_self _ _ (old.size ▸ Nat.zero_lt_one)]
      exact ⟨old.output.trans new.output.symm, old.reports_eq.trans new.reports_eq.symm,
        by simp [old.calls, new.calls], rfl⟩
    · rw [runtime_modifyRuntime_of_ne _ _ same, runtime_modifyRuntime_of_ne _ _ same,
        new.runtime_of_ne same, old.runtime_of_ne same]
      exact ⟨rfl, rfl, rfl, rfl⟩
  · intro id owner
    rw [(silent a _).output]
    by_cases same : id = 0
    · subst same
      rw [new.output]
      rintro ⟨⟩
      rfl
    · rw [new.runtime_of_ne same]
      rintro ⟨⟩
  · rw [(silent b _).own, (silent b _).journal, old.notes, (silent a _).own, (silent a _).journal,
      new.notes]

end Poised

end State

/-! ### Evaluation in a new state and in an old one -/

theorem portable_importFree (first : Nat) :
    ((discipline false first).both (custody Node.ImportFree)).Portable settings where
  kept := (discipline_kept false first settings).both custody_importFree
  safe _ _ _ allowed := allowed.1.2.1
  other _ _ _ _ _ allowed name origin same := by
    subst same
    exact Node.not_importFree_moduleImport allowed.2.2.1

/-- Once a block without imports is visited, its rule keeps the contract. -/
theorem State.Poised.keeps_block (poised : state.Poised reports) {node : Node}
    (plain : node.IsPlainBlock) (settings : Settings) :
    (nodeRule 0 { scope := 0 } node).Keeps
      ((discipline false state.runtimes.size).both (custody Node.ImportFree)) settings []
      (Change.apply state (.visit 0 node))
      (((discipline false state.runtimes.size).both (custody Node.ImportFree)).gives state) := by
  obtain ⟨⟨body, origin, rfl⟩, none⟩ := plain
  have inside : 0 < state.runtimes.size := poised.size ▸ Nat.zero_lt_one
  have ready : Ready false state.runtimes.size [] state 0 { scope := 0 } :=
    ⟨poised.sound, Nat.le_refl _, inside, ⟨poised.root_lt, by simp⟩, by simp⟩
  have held : InCustody Node.ImportFree state { scope := 0 } :=
    ⟨Node.hereditary_importFree, poised.carries, ⟨by simp, rfl⟩⟩
  exact ((portable_importFree _).kept 0 (.tree (.block body origin)) { scope := 0 } [] state
    ⟨ready.visit (.inl rfl), held.visit none⟩).2

namespace Runner

/-- A block is marked and visited before anything else is done. -/
theorem evaluateProgram_block (modules : runner.modules = []) (depth : Nat) {program : Node}
    (block : program.IsBlock) :
    runner.evaluateProgram (depth + 1) none program settings state =
      (nodeRule runner.runtime { scope := (state.runtime runner.runtime).root }
        (state.mark program).1).run (evaluate depth) settings
        (Change.apply (state.mark program).2 (.visit runner.runtime (state.mark program).1)) := by
  obtain ⟨body, origin, rfl⟩ := block
  obtain ⟨runtime, _, directory⟩ := runner
  obtain rfl : _ = [] := modules
  let context : Context := { scope := (state.runtime runtime).root }
  let marked := state.mark (.block body origin)
  change (Rule.evaluate runtime (.ofNode marked.1) context).run (evaluate (depth + 1)) settings
    marked.2 = evaluate (depth + 1) runtime (.ofNode marked.1) context settings marked.2
  exact Rule.run_evaluate ..

/-- A block without imports ends alike in a new runtime and in one in which such blocks were run. -/
theorem evaluateProgram_endsAlike {a b : State} (new : a.Poised reports) (old : b.Poised reports)
    (alone : a.heap.scopes.size = 1) (unmarked : a.nextMark = 0) (runtime : runner.runtime = 0)
    (modules : runner.modules = []) (runtime' : other.runtime = 0) (modules' : other.modules = [])
    (settings : Settings) (depth : Nat) {program : Node} (plain : program.IsPlainBlock) :
    ∃ r, EndsAlike r (Renamed r) (runner.evaluateProgram (depth + 1) none program settings a)
      (other.evaluateProgram (depth + 1) none program settings b) := by
  let r : Renaming := .shift (b.heap.scopes.size - 1) b.nextMark
  have same (i : Nat) : r.mark (a.nextMark + i) = b.nextMark + i := by
    rw [unmarked, Nat.zero_add, Nat.add_comm]
    rfl
  obtain ⟨marked, -⟩ := Node.mark_rename same program
  -- Before the visit the states may differ in the node that was evaluated last.
  have alike := (new.mark program).alike_visit (old.mark program) alone b.nextMark
    (a.mark program).1
  have visited : (a.mark program).1.IsPlainBlock := plain.mark a.nextMark
  have keeps := (new.mark program).keeps_block visited settings
  have renamed : (b.mark program).1 = (a.mark program).1.rename r := marked
  refine ⟨r, ?_⟩
  rw [evaluateProgram_block modules depth plain.1, evaluateProgram_block modules' depth plain.1,
    runtime, runtime', new.root_eq, old.root_eq, renamed]
  obtain ⟨body, origin, eq⟩ := visited.1
  have portable : Contract.Portable _ settings := portable_importFree a.runtimes.size
  let context : Context := { scope := 0 }
  have twin : Twin r (Renamed r) (nodeRule 0 context (a.mark program).1)
      (nodeRule 0 (context.rename r) ((a.mark program).1.rename r)) :=
    twin_nodeRule _ (by simp [eq])
  exact twin.endsAlike (portable.kept.at_depth depth) portable.safe
    (evaluate_endsAlike portable depth) keeps alike

end Runner

/-! ### What a host sees -/

/-- How a run has ended: the text of the value or the obstacle to it, depending on the room that
there is, or the report. -/
inductive Verdict where
  | success (text : Nat → Except Layout.Obstacle String)
  | error (report : Report)

/-- What a host sees of a run: how it has ended and what it has noted. -/
structure Sight where
  verdict : Verdict
  notes : List Note

def RunResult.sight (result : RunResult) (after : State) : Sight where
  verdict := match result.outcome with
    | .success value => .success (Layout.shown after.heap · Layout.defaultWidth 0 value)
    | .error report => .error report
  notes := after.journal result.journal

/-- What is seen of an outcome. Without a result that is only why there is none. -/
def Sight.of : Except Interrupt RunResult × State → Except Interrupt Sight
  | (.ok result, after) => .ok (result.sight after)
  | (.error reason, _) => .error reason

def Runner.sight (depth : Nat) (runner : Runner) (script : Script) (settings : Settings)
    (state : State) : Except Interrupt Sight :=
  Sight.of (runner.run depth script settings state)

namespace Runner

/-- A report is seen with the journal, in which it is noted last. -/
theorem sight_failWith (runtime : runner.runtime = 0) (report : Report) :
    Sight.of (runner.failWith report settings state) =
      .ok ⟨.error report,
        (state.note 0 ⟨.error, report.message⟩).journal (state.runtime 0).journal⟩ := by
  rw [← runtime]
  rfl

end Runner

namespace Served

/-- Blocks without imports do not depend on each other. Whichever of them were run in the one
runtime of a host without modules, in whatever way they have ended: what is seen of the next one is
what is seen of it in a new runtime. That is whether it succeeds, the text of its value or else the
message, the kind and the place of its error, and all that it prints. There is room for one
evaluation at least, since the block itself has to be visited. -/
theorem independent (served : Served Node.IsPlainBlock 0 (State.solo reports) state)
    (runtime : runner.runtime = 0) (modules : runner.modules = []) (runtime' : other.runtime = 0)
    (modules' : other.modules = []) (settings : Settings) {script : Script}
    (loads : script.Loads Node.IsPlainBlock settings.files.reader) (depth : Nat) :
    runner.sight (depth + 1) script settings state =
      other.sight (depth + 1) script settings (State.solo reports) := by
  have old := served.poised runtime modules settings
  have new : (other.prepared settings (State.solo reports)).Poised reports :=
    Served.start.poised runtime' modules' settings
  unfold Runner.sight Runner.run
  rw [Runner.runFrom_apply, Runner.runFrom_apply]
  cases loaded : script.load settings.files.reader with
  | error fault =>
      simp only
      cases fault.interrupt? with
      | some reason => rfl
      | none =>
          simp only [Runner.failToLoad, Runner.sight_failWith runtime,
            Runner.sight_failWith runtime', State.journal_note, old.notes, new.notes]
  | ok program =>
      obtain ⟨r, ends⟩ := Runner.evaluateProgram_endsAlike new old rfl rfl runtime' modules'
        runtime modules settings depth (loads program loaded)
      simp only
      generalize other.evaluateProgram (depth + 1) none program settings
        (other.prepared settings (State.solo reports)) = alone at ends ⊢
      generalize runner.evaluateProgram (depth + 1) none program settings
        (runner.prepared settings state) = later at ends ⊢
      cases ends with
      | @ok x y a b same alike =>
          subst same
          simp only [Sight.of, RunResult.sight, runtime, runtime', alike.noted]
          simp only [Layout.shown_alike alike.heap]
      | @error reason a b alike =>
          have report := Interrupt.report_rename (r := r) settings.room (a.runtime 0).current reason
          rw [← (alike.runtime 0).current] at report
          simp only [runtime, runtime', report]
          cases reason.report settings.room (a.runtime 0).current with
          | error obstacle => rfl
          | ok report =>
              simp only [Runner.sight_failWith runtime, Runner.sight_failWith runtime']
              have noted := (alike.note ⟨.error, report.message⟩).noted
              exact congrArg (fun notes => Except.ok (Sight.mk (.error report) notes)) noted

/-- A block defines a function and fails. Then another block defines a function of that name and
prints what it gives. -/
theorem independent_redefinition :
    let settings := Settings.quiet Files.empty
    let define (n : Int) : Node := .call "def" [.memory "f" {}] (.number (.int n) {}) {}
    let failing : Script := .program (.block [define 1, .call "nope" [] .absent {}] {})
    let printing : Script :=
      .program (.block [define 2, .call "print" [.call "f" [] .absent {}] .absent {}] {})
    let first := (Runner.main.call settings 9 State.fresh (.script failing)).2
    Runner.main.sight 9 printing settings first =
        Runner.main.sight 9 printing settings State.fresh ∧
      (Runner.main.sight 9 printing settings State.fresh).toOption.map (·.notes) =
        some [⟨.output, "2"⟩] := by
  intro settings define failing printing first
  have plain (body : List Node) (none : Node.importsAll body = []) :
      Script.Loads Node.IsPlainBlock .standard (.program (.block body {})) := by
    rintro _ ⟨⟩
    exact ⟨⟨body, {}, rfl⟩, none⟩
  have served : Served Node.IsPlainBlock 0 (State.solo true) first :=
    .call settings 9 Runner.main (.script failing) .start rfl rfl (plain _ rfl)
  have independent (state : State) (served : Served Node.IsPlainBlock 0 (State.solo true) state) :
      Runner.main.sight (8 + 1) printing settings state =
        Runner.main.sight (8 + 1) printing settings (State.solo true) :=
    served.independent rfl rfl rfl rfl settings (plain _ rfl) 8
  exact ⟨independent first served, by decide +kernel⟩

end Served

end TreeScript
