import TreeScript.Proofs.Answers
import TreeScript.Proofs.BlockPrograms

/-!
# Programs without imports

Evaluation makes no trees, so a program in which there is no import never meets one. An import is
what adds a runtime, and what adds a namespace to the root. So a host that runs blocks without
imports in its one runtime has this runtime alone however many it runs, and the root is what it was
in the beginning, with its namespaces. Of the earlier runs there are scopes left, to which the root
does not lead, and what they have written in their journals.
-/

namespace TreeScript

open Rule

/-- There is no import in the tree. -/
def Node.ImportFree (node : Node) : Prop := node.imports = []

instance (node : Node) : Decidable node.ImportFree :=
  inferInstanceAs (Decidable (node.imports = []))

namespace Node

mutual

theorem imports_mark (next : Nat) (node : Node) : (node.mark next).1.imports = node.imports := by
  cases node with
  | list mark items =>
      simp only [Node.mark, imports]
      exact importsAll_markAll (next + 1) items
  | call name parameters yielded origin =>
      simp only [Node.mark, imports]
      rw [importsAll_markAll (next + 1) parameters, imports_mark _ yielded]
  | block body origin | program body origin | group body origin =>
      simp only [Node.mark, imports]
      exact importsAll_markAll (next + 1) body
  | absent | number | text | boolean | memory | moduleImport => rfl

theorem importsAll_markAll (next : Nat) (nodes : List Node) :
    importsAll (markAll next nodes).1 = importsAll nodes := by
  match nodes with
  | [] => rfl
  | node :: rest =>
      simp only [markAll, importsAll]
      rw [imports_mark next node, importsAll_markAll _ rest]

end

theorem importFree_of_mem {nodes : List Node} (none : importsAll nodes = []) {node : Node}
    (mem : node ∈ nodes) : node.ImportFree := by
  induction nodes with
  | nil => cases mem
  | cons first rest ih =>
      obtain ⟨here, others⟩ := List.append_eq_nil_iff.mp none
      rcases List.mem_cons.mp mem with rfl | later
      · exact here
      · exact ih others later

/-- The parts of a tree without imports have none either. -/
theorem hereditary_importFree : Hereditary ImportFree where
  absent := rfl
  call none := by
    obtain ⟨parameters, yielded⟩ := List.append_eq_nil_iff.mp none
    exact ⟨fun _ mem => importFree_of_mem parameters mem, yielded⟩
  block none _ mem := importFree_of_mem none mem
  program none _ mem := importFree_of_mem none mem
  group none _ mem := importFree_of_mem none mem
  mark next none := (imports_mark next _).trans none

theorem not_importFree_moduleImport {name : String} {origin : Origin} :
    ¬ (moduleImport name origin).ImportFree :=
  List.cons_ne_nil _ _

/-- A block in which there is no import. -/
def IsPlainBlock (node : Node) : Prop := node.IsBlock ∧ node.ImportFree

theorem IsPlainBlock.mark {node : Node} (plain : node.IsPlainBlock) (next : Nat) :
    (node.mark next).1.IsPlainBlock :=
  ⟨plain.1.mark next, hereditary_importFree.mark next plain.2⟩

end Node

variable {root : ScopeId} {origin state : State} {settings : Settings} {runner : Runner}

/-- Without imports a scope that is kept has only its parent that could have changed. -/
theorem Scope.Kept.eq {before after : Scope} (kept : before.Kept False after)
    (parent : after.parent = before.parent) : after = before := by
  obtain ⟨functions, returned, children⟩ := kept
  have children := children not_false
  cases before
  cases after
  cases functions
  cases returned
  cases children
  cases parent
  rfl

/-! ### Nothing is imported -/

/-- Without imports in what is evaluated there is no need to ask anything of the files. -/
theorem custody_importFree : (custody Node.ImportFree).Kept settings :=
  custody_kept Node.hereditary_importFree fun _ _ none =>
    absurd none Node.not_importFree_moduleImport

/-- No import is met, and the scope stays sealed. -/
def seclusion (root : ScopeId) (origin : State) : Contract :=
  (custody Node.ImportFree).both (aloofness root False origin)

theorem seclusion_kept : (seclusion root origin).Kept settings := by
  rintro runtime object context frames state ⟨known, aloof⟩
  refine (custody_importFree runtime object context frames state known).both
    (aloof_evaluateStep aloof ?_)
  rintro name origin rfl
  exact Node.not_importFree_moduleImport known.2.1

/-! ### One runtime alone -/

/-- Since the one runtime was new, it has been the only one, and its root has not been touched. No
tree that is known has an import in it. -/
structure Secluded (reports : Bool) (state : State) : Prop where
  guarded : Guarded 0 False (State.solo reports) 0 state
  carries : state.Carries Node.ImportFree
  reports_eq : (state.runtime 0).reports = reports

namespace Secluded

variable {reports : Bool}

theorem start (reports : Bool) : Secluded reports (State.solo reports) where
  guarded :=
    ⟨Session.start.addRegistry.sound.sealed 0 none none reports, Nat.zero_lt_one, rfl⟩
  carries := State.carries_solo Node.hereditary_importFree reports
  reports_eq := rfl

theorem renewJournal (secluded : Secluded reports state) (id : RuntimeId) :
    Secluded reports (state.renewJournal id) where
  guarded := secluded.guarded.renewJournal id
  carries := secluded.carries.renewJournal id
  reports_eq := by
    rw [state.view_renewJournal Runtime.reports id fun _ _ => rfl]
    exact secluded.reports_eq

theorem note (secluded : Secluded reports state) (id : RuntimeId) (note : Note) :
    Secluded reports (state.note id note) :=
  ⟨secluded.guarded.note id note, secluded.carries.record _, secluded.reports_eq⟩

theorem prepared (secluded : Secluded reports state) (settings : Settings) (runner : Runner) :
    Secluded reports (runner.prepared settings state) where
  guarded := secluded.guarded.prepared settings runner
  carries := Runner.carries_prepared secluded.carries settings runner
  reports_eq := by
    rw [runner.view_prepared Runtime.reports settings state (fun _ _ => rfl) fun _ _ => rfl]
    exact secluded.reports_eq

/-- A block without imports leaves the runtime alone as it was, however it ends. -/
theorem evaluateProgram (secluded : Secluded reports state) (modules : runner.modules = [])
    (depth : Nat) (place : Option Place) {program : Node} (plain : program.IsPlainBlock) :
    Secluded reports (runner.evaluateProgram depth place program settings state).2 := by
  obtain ⟨block, none⟩ := plain
  obtain ⟨guarded, carries, reports_eq⟩ := secluded
  have ready : ∀ entry ∈ runner.modules, entry.2.Carries Node.ImportFree := by simp [modules]
  have keeps : (runner.programRule place program).Keeps (seclusion 0 (State.solo reports)) settings
      [] state _ :=
    (Runner.carried_programRule Node.hereditary_importFree carries runner ready place none).both
      (Runner.aloof_programRule guarded.closed modules place block)
  have allowed := (keeps.sound seclusion_kept depth).2
  have linked := runner.moments_linked settings depth place program state
  have known := linked.invariant (P := fun _ state => state.Carries Node.ImportFree)
    (fun m mem known => m.carries_next Node.hereditary_importFree known (allowed m mem).1) carries
  have stays := linked.grows.1.runtime 0 guarded.runtime_lt
  exact ⟨guarded.of_allowed fun m mem => (allowed m mem).2, known.1,
    stays.reports.trans reports_eq⟩

theorem runFrom (secluded : Secluded reports state) (modules : runner.modules = []) (depth : Nat)
    (place : Option Place) {script : Script}
    (loads : script.Loads Node.IsPlainBlock settings.files.reader) :
    Secluded reports (runner.runFrom depth place script settings state).2 := by
  have begun := secluded.prepared settings runner
  refine Runner.runFrom_state (Secluded reports) runner begun (fun program loaded => ?_)
    fun id note known => known.note id note
  exact begun.evaluateProgram modules depth place (loads program loaded)

end Secluded

/-! ### Many runs -/

namespace Runner.Serving

variable {replies : List Reply}

/-- Another runner without modules of its own may go on in the same runtime. -/
theorem handOver (serving : Serving false runner state replies) {other : Runner}
    (same : other.runtime = runner.runtime) (modules : other.modules = []) :
    Serving false other state replies where
  sound := serving.sound
  valid := ⟨same ▸ serving.valid.runtime, by simp [modules]⟩
  routes := same ▸ serving.routes
  replied := same ▸ serving.replied

end Runner.Serving

namespace Served

variable {reports : Bool}

theorem secluded (served : Served Node.IsPlainBlock 0 (State.solo reports) state) :
    Secluded reports state := by
  induction served with
  | start => exact .start reports
  | @call state settings depth runner request _ _ modules loads ih =>
      refine Runner.call_state (Secluded reports) loads ih (ih.renewJournal runner.runtime)
        (fun id note known => known.note id note) ?_
      intro other place script _ same loads
      exact ih.runFrom (same.trans modules) depth place loads

/-- Any runner without modules of its own may go on, and all replies so far were delivered. -/
theorem serving {P : Node → Prop} (served : Served P 0 (State.solo reports) state)
    (runtime : runner.runtime = 0) (modules : runner.modules = []) :
    ∃ replies, runner.Serving false state replies := by
  induction served generalizing runner with
  | start =>
      exact ⟨[], (Runner.Serving.start false none reports).handOver runtime modules⟩
  | @call state settings depth caller request _ runtime' modules' _ ih =>
      obtain ⟨replies, serving⟩ := ih runtime' modules'
      have after := serving.call settings depth request
      have same : (caller.call settings depth state request).1.1.runtime = caller.runtime := by
        rcases Runner.call_cases settings depth caller state request with
          ⟨other, place, script, same, -, called, -⟩ | ⟨-, ⟨reason, called⟩ | ⟨report, called⟩⟩
        · rw [called]
          exact same
        · rw [called]
        · rw [called]
      exact ⟨_, after.handOver (runtime.trans (same.trans runtime').symm) modules⟩

end Served

end TreeScript
