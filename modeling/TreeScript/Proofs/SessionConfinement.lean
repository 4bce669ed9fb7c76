import TreeScript.Proofs.EvaluationConfinement
import TreeScript.Proofs.Session

/-!
# Sessions without a host

Everything that a session without a host reaches forms one realm, and no program leaves it. So the
builtins of each runtime stay where they are, in the root of that runtime.
-/

namespace TreeScript

open Rule

/-- Everything is in the realm. -/
def Realm.whole : Realm := ⟨fun _ => True, fun _ => True⟩

variable {settings : Settings} {state : State} {runner : Runner}

theorem Confined.whole (sound : state.Sound false) (housed : state.Housed) :
    Confined Realm.whole state state := by
  apply sound.confined housed
  · exact fun _ _ => trivial
  · exact fun _ _ _ _ _ => trivial
  · exact fun _ _ _ => trivial
  · exact fun _ _ _ _ => trivial

namespace Runner

theorem Valid.modules_eq (valid : runner.Valid false state) : runner.modules = [] := by
  refine List.eq_nil_iff_forall_not_mem.mpr fun entry mem => ?_
  cases (valid.modules entry mem).1

/-- A program stays in the realm of everything. -/
theorem confined_programRule (confined : Confined Realm.whole state state)
    (valid : runner.Valid false state) (place : Option Place) (program : Node) :
    (runner.programRule place program).Keeps (confinement settings Realm.whole state) settings []
      state ((confinement settings Realm.whole state).gives state) := by
  simp only [programRule, valid.modules_eq, registerAll, keeps_bind, keeps_inspect, keeps_pure]
  refine (confined_marked confined program).mono fun program after marked => ?_
  have inside := Nat.lt_of_lt_of_le valid.runtime.runtime_lt marked.grows.runtimes
  have active : Active Realm.whole state after runner.runtime
      { scope := (after.runtime runner.runtime).root } :=
    ⟨marked.confined, inside, trivial, trivial, by simp⟩
  cases place with
  | none => exact ⟨active.visitNode program, fun x last given => ⟨marked.trans given.1, given.2⟩⟩
  | some place =>
      exact (confined_evaluateFile active place program).mono fun x last given =>
        ⟨marked.trans given.1, given.2⟩

end Runner

theorem State.Housed.modifyRuntime (housed : state.Housed) (id : RuntimeId)
    {change : Runtime → Runtime}
    (root : ∀ runtime : Runtime, (change runtime).root = runtime.root) :
    (state.modifyRuntime id change).Housed := by
  intro scope name owner builtin mem
  obtain ⟨inside, found⟩ := housed scope name owner builtin mem
  constructor
  · rw [state.size_modifyRuntime]
    exact inside
  · rw [state.view_modifyRuntime Runtime.root id root]
    exact found

theorem State.Housed.renewJournal (housed : state.Housed) (id : RuntimeId) :
    (state.renewJournal id).Housed := by
  have changed : (state.modifyRuntime id fun r => { r with journal := state.journals }).Housed :=
    housed.modifyRuntime id fun _ => rfl
  exact changed

theorem Runner.housed_prepared (housed : state.Housed) :
    (runner.prepared settings state).Housed := by
  unfold prepared
  exact (housed.renewJournal runner.runtime).modifyRuntime runner.runtime fun _ => rfl

/-- In every state of a session without a host, the builtins of each runtime are bound in its root
alone. -/
theorem Session.housed (session : Session false state) : state.Housed := by
  induction session with
  | start =>
      intro id name owner builtin mem
      simp [Heap.get] at mem
  | addRegistry _ ih => exact ih
  | addRuntime registry directory output reports _ _ ih =>
      exact ih.addRuntime registry directory output reports
  | change c _ hosts _ _ => cases hosts
  | renewJournal runner _ _ ih => exact ih.renewJournal runner.runtime
  | prepare settings runner _ _ ih => exact Runner.housed_prepared ih
  | evaluate settings depth runner place program session valid ih =>
      have confined := Confined.whole session.sound ih
      have keeps : Rule.Keeps _ settings _ [] _ _ :=
        Runner.confined_programRule confined valid place program
      exact (keeps.confined confined depth).1.housed
  | note id note _ ih => exact ih

end TreeScript
