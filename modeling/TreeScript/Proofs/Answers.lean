import TreeScript.Proofs.LayoutRoom
import TreeScript.Proofs.RunCustody
import TreeScript.Proofs.Session

/-!
# Answers

A run answers with a result, whatever ends the loading or the evaluation of its script early. Two
things alone keep it from that. What stops a decoder need not count as a fault of the document. And
a report shows the call that it is about, in whose way may stand an integer with too many digits or
too deep a nesting. The latter cannot come about while all trees can be laid out.
-/

namespace TreeScript

/-! ### Trees that can be laid out -/

namespace Node

theorem markAll_eq_nil_iff (next : Nat) (nodes : List Node) :
    (markAll next nodes).1 = [] ↔ nodes = [] := by
  cases nodes <;> simp [markAll]

theorem mark_eq_absent_iff (next : Nat) (node : Node) :
    (node.mark next).1 = absent ↔ node = absent := by
  cases node <;> simp [mark]

mutual

/-- Marks are not shown. -/
theorem nodeObstacle?_mark (room next : Nat) (node : Node) :
    Layout.nodeObstacle? room (node.mark next).1 = Layout.nodeObstacle? room node := by
  match node with
  | .list _ items | .program items _ | .group items _ =>
      simp only [mark, Layout.nodeObstacle?, nodesObstacle?_mark]
  | .call name parameters yielded origin =>
      by_cases none : yielded = .absent
      · subst none
        simp only [mark, Layout.nodeObstacle?, nodesObstacle?_mark]
      · have some := mt (mark_eq_absent_iff (markAll (next + 1) parameters).2 yielded).mp none
        simp only [mark, Layout.nodeObstacle?_call _ _ _ _ none,
          Layout.nodeObstacle?_call _ _ _ _ some, nodesObstacle?_mark, nodeObstacle?_mark]
  | .block body origin =>
      by_cases none : body = []
      · subst none
        rfl
      · have some := mt (markAll_eq_nil_iff (next + 1) body).mp none
        simp only [mark, Layout.nodeObstacle?_block _ _ none, Layout.nodeObstacle?_block _ _ some,
          nodesObstacle?_mark]
  | .absent | .number .. | .text .. | .boolean .. | .memory .. | .moduleImport .. => rfl

theorem nodesObstacle?_mark (room next : Nat) (nodes : List Node) :
    Layout.nodesObstacle? room (markAll next nodes).1 = Layout.nodesObstacle? room nodes := by
  match nodes with
  | [] => rfl
  | node :: rest =>
      simp only [markAll, Layout.nodesObstacle?, nodeObstacle?_mark, nodesObstacle?_mark]

end

/-- The tree can be laid out, unless it is missing. -/
def Fits (room : Nat) (node : Node) : Prop :=
  node ≠ absent → Layout.nodeObstacle? room node = none

theorem fits_of_clear {room : Nat} {node : Node}
    (clear : Layout.nodeObstacle? room node = none) : node.Fits room :=
  fun _ => clear

/-- Without its block, a call can still be laid out. -/
theorem Fits.withoutYield {room : Nat} {node : Node} (fits : node.Fits room) :
    node.withoutYield.Fits room := by
  cases node with
  | call name parameters yielded origin =>
      exact fits_of_clear (Layout.call_clear (fits (by simp))).1
  | _ => exact fits

end Node

/-! ### Reports -/

namespace Interrupt

/-- The report tells the kind of the error and begins with its headline. -/
structure Tells (reason : Interrupt) (report : Report) : Prop where
  kind : report.kind = reason.kind?
  headline : ∃ rest, report.message = reason.headline ++ rest

end Interrupt

/-! ### Runs -/

theorem State.Carries.renewJournal {P : Node → Prop} {state : State} (carries : state.Carries P)
    (id : RuntimeId) : (state.renewJournal id).Carries P := by
  have changed : (state.modifyRuntime id fun r => { r with journal := state.journals }).Carries P :=
    carries.modifyRuntime id fun _ old => ⟨old.calls, old.current⟩
  exact changed.same rfl rfl rfl

namespace Runner

theorem carries_prepared {P : Node → Prop} {state : State} (carries : state.Carries P)
    (settings : Settings) (runner : Runner) : (runner.prepared settings state).Carries P := by
  unfold prepared
  have renewed := carries.renewJournal runner.runtime
  exact renewed.modifyRuntime runner.runtime fun _ old => ⟨by simp, old.current⟩

end Runner

/-- A call of a function that is not known, with one argument. -/
def Data.unknownCall (argument : Data) : Data :=
  .dict [(.text "type", .text "FunctionCall"), (.text "name", .text "nope"),
    (.text "parameters", .list [argument])]

def Data.integerLiteral (n : Nat) : Data :=
  .dict [(.text "type", .text "NumberLiteral"), (.text "value", .int n)]

/-- A call in the yield of a call, and so on. -/
def Data.nestedYields : Nat → Data
  | 0 => .null
  | n + 1 => .dict [(.text "type", .text "FunctionCall"), (.text "name", .text "f"),
      (.text "yieldFunction", nestedYields n)]

/-- When the first runtime is new, no program is known. -/
theorem State.carries_solo {P : Node → Prop} (hereditary : Node.Hereditary P) (reports : Bool) :
    (State.solo reports).Carries P := by
  have empty : ({} : State).Carries P :=
    ⟨fun id => ⟨by simp [Heap.get], by simp [Heap.get]; trivial⟩,
      fun id => ⟨by simp [State.runtime], hereditary.absent⟩, fun id => by simp [State.registry]⟩
  have registered : (State.addRegistry {}).2.Carries P := by
    refine ⟨empty.scope, empty.runtime, fun id entry mem => ?_⟩
    rcases id with _ | id <;> simp [State.addRegistry, State.registry] at mem
  exact registered.addRuntime hereditary 0 none none reports

/-- Nor is there one with yields that nest too deeply for the room, although they can be read. -/
example :
    let document := Data.unknownCall (.nestedYields 10)
    let settings := { Settings.quiet .empty with room := 20 }
    (Document.load .standard document).isOk ∧
      (Runner.main.run 8 (.data document) settings State.fresh).1.isOk = false := by
  decide +kernel

end TreeScript
