import TreeScript.Proofs.ConfinedState
import TreeScript.Proofs.Contract
import TreeScript.Proofs.Routine

/-!
# Evaluation within a realm

A runtime whose root is in a realm, and which evaluates in a context of the realm, stays in it: it
changes no other scope, whether it ends early or not, and what it gives leads to no other scope and
is no node. The last point is why nothing has to be evaluated twice to become a literal. If the step
limit allows a single step, no reduction comes to the limit.
-/

namespace TreeScript

open Rule

/-- A runtime of the realm may evaluate in a context of the realm. -/
structure Active (realm : Realm) (origin state : State) (runtime : RuntimeId)
    (context : Context) : Prop where
  confined : Confined realm origin state
  runtime_lt : runtime < state.runtimes.size
  root : realm.scopes (state.runtime runtime).root
  scope : realm.scopes context.scope
  parameters : ∀ x ∈ context.parameters, x.In realm

/-- A state in the realm that has grown from another one. -/
structure Onward (realm : Realm) (origin before after : State) : Prop where
  confined : Confined realm origin after
  grows : before.Grows after

/-- Every part is evaluated by a runtime of the realm, every change stays in the realm, and what a
part gives does not lead out of it. The step limit is reached only if it allows no step. -/
def confinement (settings : Settings) (realm : Realm) (origin : State) : Contract where
  allows _ state deed := match deed with
    | .visit runtime object context =>
        Active realm origin state runtime context ∧ (object.isNode = true ∨ object.In realm)
    | .change c => c.In realm state
    | .fail _ cause _ => cause.isLimit = true → settings.stepLimit < 1
    | .enter _ | .leave _ | .halt _ => True
  encloses _ _ := True
  gives before x after := Onward realm origin before after ∧ x.In realm
  allows_leave _ _ _ := trivial

/-- From each moment that is allowed the next one is in the realm, too. -/
theorem Confined.next {settings : Settings} {realm : Realm} {origin : State} {moment : Moment}
    (confined : Confined realm origin moment.state)
    (allowed : (confinement settings realm origin).allows moment.frames moment.state moment.deed) :
    Confined realm origin moment.nextState := by
  obtain ⟨depth, frames, state, deed⟩ := moment
  cases deed with
  | visit runtime object context => exact confined
  | change c => exact confined.change allowed
  | enter frame => exact confined.enter frame
  | leave frame => exact confined.leave frame
  | fail runtime cause node => exact confined.reportError runtime cause
  | halt reason => exact confined

section

variable {realm : Realm} {origin a b c : State}

namespace Onward

protected theorem refl (confined : Confined realm origin a) : Onward realm origin a a :=
  ⟨confined, .refl a⟩

protected theorem trans (first : Onward realm origin a b) (second : Onward realm origin b c) :
    Onward realm origin a c :=
  ⟨second.confined, first.grows.trans second.grows⟩

theorem change (confined : Confined realm origin a) {c : Change} (into : c.In realm a) :
    Onward realm origin a (c.apply a) :=
  ⟨confined.change into, c.apply_grows a⟩

theorem enter (confined : Confined realm origin a) (frame : Frame) :
    Onward realm origin a (frame.enter a) :=
  ⟨confined.enter frame, frame.enter_grows a⟩

theorem leave (confined : Confined realm origin a) (frame : Frame) :
    Onward realm origin a (frame.leave a) :=
  ⟨confined.leave frame, frame.leave_grows a⟩

end Onward

end

section

variable {settings : Settings} {realm : Realm} {origin state after : State}
variable {frames : List Frame} {runtime : RuntimeId} {context : Context} {α : Type}

namespace Active

theorem later (active : Active realm origin state runtime context)
    (onward : Onward realm origin state after) : Active realm origin after runtime context where
  confined := onward.confined
  runtime_lt := Nat.lt_of_lt_of_le active.runtime_lt onward.grows.runtimes
  root := by
    rw [(onward.grows.runtime runtime active.runtime_lt).root]
    exact active.root
  scope := active.scope
  parameters := active.parameters

/-- The registry that a runtime of the realm imports through belongs to the realm. -/
theorem registry (active : Active realm origin state runtime context) :
    realm.registries (state.runtime runtime).registry :=
  active.confined.registries runtime active.runtime_lt active.root

theorem visitNode (active : Active realm origin state runtime context) (node : Node) :
    (confinement settings realm origin).allows frames state
      (.visit runtime (.ofNode node) context) :=
  ⟨active, Object.node_or_in realm node⟩

theorem visit (active : Active realm origin state runtime context) {object : Object}
    (into : object.In realm) :
    (confinement settings realm origin).allows frames state (.visit runtime object context) :=
  ⟨active, .inr into⟩

end Active

theorem Object.IsDatum.into {object : Object} (datum : object.IsDatum) : object.In realm := by
  unfold IsDatum at datum
  split at datum
  · exact ⟨rfl, by simp [target?]⟩
  · exact ⟨rfl, by simp [target?]⟩
  · exact ⟨rfl, by simp [target?]⟩
  · exact datum.elim

/-- A failure that is not for want of steps is allowed. -/
theorem confinement_fail {cause : Cause} (other : cause.isLimit = false) (node : Node) :
    (confinement settings realm origin).allows frames state (.fail runtime cause node) := by
  intro limit
  rw [other] at limit
  cases limit

theorem Rule.Calm.confined {P : α → Prop} {rule : Rule α} (calm : Calm runtime P rule)
    {post : α → State → Prop} (h : ∀ a, P a → post a state) :
    rule.Keeps (confinement settings realm origin) settings frames state post := by
  induction calm with
  | done holds => exact h _ holds
  | look _ ih => exact ih settings state
  | fail other _ => exact confinement_fail other _
  | halt reason => trivial

/-! ### The shared rules -/

namespace Rule

theorem confined_evaluate (active : Active realm origin state runtime context) {object : Object}
    (plain : object.isNode = true ∨ object.In realm) :
    (evaluate runtime object context).Keeps (confinement settings realm origin) settings frames
      state ((confinement settings realm origin).gives state) :=
  ⟨⟨active, plain⟩, fun _ _ given => given⟩

/-- The slot of a memory of the realm is in the realm. -/
theorem confined_memoryOf (active : Active realm origin state runtime context) {object : Object}
    (into : object.In realm) :
    (memoryOf runtime context object).Keeps (confinement settings realm origin) settings frames
      state fun found after => after = state ∧ realm.scopes found.2.scope := by
  refine (calm_memoryOf context object).confined fun found cases => ⟨rfl, ?_⟩
  rcases cases with rfl | eq
  · exact into.target _ rfl
  · rw [eq]
    exact active.scope

theorem confined_all (active : Active realm origin state runtime context) (nodes : List Node) :
    (all runtime context nodes).Keeps (confinement settings realm origin) settings frames state
      fun xs after => Onward realm origin state after ∧ ∀ x ∈ xs, x.In realm := by
  induction nodes generalizing state with
  | nil => exact ⟨.refl active.confined, by simp⟩
  | cons node rest ih =>
      simp only [all, keeps_bind, keeps_evaluate, keeps_pure]
      refine ⟨active.visitNode node, fun x middle given => ?_⟩
      refine (ih (active.later given.1)).mono fun xs after later => ?_
      exact ⟨given.1.trans later.1, List.forall_mem_cons.mpr ⟨given.2, later.2⟩⟩

theorem confined_each (active : Active realm origin state runtime context) (nodes : List Node) :
    (each runtime context nodes).Keeps (confinement settings realm origin) settings frames state
      fun _ after => Onward realm origin state after := by
  induction nodes generalizing state with
  | nil => exact .refl active.confined
  | cons node rest ih =>
      simp only [each, keeps_bind, keeps_evaluate]
      refine ⟨active.visitNode node, fun x middle given => ?_⟩
      exact (ih (active.later given.1)).mono fun _ after later => given.1.trans later

theorem confined_last (active : Active realm origin state runtime context) (nodes : List Node)
    {result : Object} (into : result.In realm) :
    (last runtime context result nodes).Keeps (confinement settings realm origin) settings frames
      state ((confinement settings realm origin).gives state) := by
  induction nodes generalizing state result with
  | nil => exact ⟨.refl active.confined, into⟩
  | cons node rest ih =>
      simp only [last, keeps_bind, keeps_evaluate]
      refine ⟨active.visitNode node, fun x middle given => ?_⟩
      exact (ih (active.later given.1) given.2).mono fun _ after later =>
        ⟨given.1.trans later.1, later.2⟩

theorem confined_blockIn (active : Active realm origin state runtime context) {scope : ScopeId}
    (inside : realm.scopes scope) (body : List Node) :
    (blockIn runtime context scope body).Keeps (confinement settings realm origin) settings frames
      state ((confinement settings realm origin).gives state) := by
  have active' : Active realm origin state runtime { context with scope, returnScope := false } :=
    { active with scope := inside, parameters := active.parameters }
  simp only [blockIn, keeps_bind]
  refine (confined_each active' body).mono fun _ after onward => ?_
  split
  · exact ⟨onward, Object.in_scope inside⟩
  · exact ⟨onward, (onward.confined.closed scope inside).returned⟩

/-- What is no node is a literal or none, and no step is needed. -/
theorem confined_reduceWithin {object : Object} (plain : object.isNode = false) (limit : Int)
    (remaining : Nat) {post : Value → State → Prop}
    (h : ∀ value, object = .value value → post value state) :
    (reduceWithin runtime context limit remaining object).Keeps (confinement settings realm origin)
      settings frames state post := by
  cases remaining <;>
  · unfold reduceWithin
    split
    · exact h _ rfl
    · rw [if_neg (by simp [plain])]
      exact confinement_fail rfl _

/-- A tree is evaluated at most once to become a literal. -/
theorem confined_reduce (active : Active realm origin state runtime context) (node : Node) :
    (reduce runtime context (.ofNode node)).Keeps (confinement settings realm origin) settings
      frames state fun value after =>
        Onward realm origin state after ∧ (Object.value value).In realm := by
  simp only [reduce, keeps_bind, keeps_inspect]
  cases isNode : (Object.ofNode node).isNode with
  | false =>
      refine confined_reduceWithin isNode _ _ fun value eq => ?_
      cases node <;> cases eq
  | true =>
      cases steps : settings.stepLimit.toNat with
      | zero =>
          have few : settings.stepLimit < 1 := by omega
          unfold reduceWithin
          split
          · rename_i eq
            cases node <;> cases eq
          · rw [if_pos isNode]
            exact fun _ => few
      | succ remaining =>
          unfold reduceWithin
          split
          · rename_i eq
            cases node <;> cases eq
          · rw [if_pos isNode]
            simp only [keeps_bind, keeps_evaluate]
            refine ⟨active.visitNode node, fun x after given => ?_⟩
            refine confined_reduceWithin given.2.isNode _ _ ?_
            rintro value rfl
            exact given

/-- What is no node is no block. -/
theorem confined_reduceToBlockWithin {object : Object} (plain : object.isNode = false) (limit : Int)
    (remaining : Nat) {post : Node → State → Prop} :
    (reduceToBlockWithin runtime context limit remaining object).Keeps
      (confinement settings realm origin) settings frames state post := by
  cases remaining <;>
  · unfold reduceToBlockWithin
    split
    · cases plain
    · cases plain
    · exact confinement_fail rfl _

/-- Only a tree that is a block is evaluated to a block. -/
theorem confined_reduceToBlock (active : Active realm origin state runtime context) (node : Node) :
    (reduceToBlock runtime context (.ofNode node)).Keeps (confinement settings realm origin)
      settings frames state fun block after =>
        after = state ∧ node = block ∧ ∃ body place, block = .block body place := by
  simp only [reduceToBlock, keeps_bind, keeps_inspect]
  cases steps : settings.stepLimit.toNat with
  | zero =>
      have few : settings.stepLimit < 1 := by omega
      unfold reduceToBlockWithin
      split
      · exact fun _ => few
      · rename_i eq
        cases node <;> cases eq
        exact ⟨rfl, rfl, _, _, rfl⟩
      · exact confinement_fail rfl _
  | succ remaining =>
      unfold reduceToBlockWithin
      split
      · rename_i eq
        cases node <;> cases eq
        simp only [keeps_bind, keeps_evaluate]
        exact ⟨⟨active, .inl rfl⟩, fun x after given =>
          confined_reduceToBlockWithin given.2.isNode _ _⟩
      · rename_i eq
        cases node <;> cases eq
        exact ⟨rfl, rfl, _, _, rfl⟩
      · exact confinement_fail rfl _

theorem confined_trace (confined : Confined realm origin state) (line : String) :
    (trace line).Keeps (confinement settings realm origin) settings frames state fun _ after =>
      Onward realm origin state after := by
  simp only [trace, keeps_bind, keeps_inspect]
  split
  · exact ⟨trivial, .change confined trivial⟩
  · exact .refl confined

end Rule

end

end TreeScript
