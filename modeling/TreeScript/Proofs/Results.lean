import TreeScript.Proofs.SessionConfinement

/-!
# What evaluation yields

Without a host, what is evaluated, passed on or returned is nothing, a value, a scope or a list, and
never a node that could be evaluated again. Every memory among these has the slot of its own name.
So `defI`, `set` and `obj` evaluate one tree at most to get what they need, no reduction comes to
the step limit, and a namespace is only ever made of a block that stands in the program.
-/

namespace TreeScript

open Rule

/-- Nothing, a value, a scope or a list. A memory has a slot of its own name. -/
def Object.Plain : Object → Prop
  | .absent | .scope _ => True
  | .value (.memory name slot) => ∃ scope, slot = some ⟨scope, name⟩
  | .value _ => True
  | .tree node => ∃ mark items, node = .list mark items
  | .function .. | .plain .. => False

theorem Object.Valid.plain {scopes runtimes : Nat} {object : Object}
    (valid : object.Valid ⟨false, scopes, runtimes⟩) : object.Plain := by
  cases object with
  | absent => trivial
  | scope id => trivial
  | value value =>
      cases value with
      | memory name slot =>
          cases slot with
          | none => cases valid
          | some slot =>
              obtain ⟨scope, label⟩ := slot
              obtain rfl : label = name := valid.2 rfl
              exact ⟨scope, rfl⟩
      | _ => trivial
  | tree node => exact valid.resolve_left Bool.false_ne_true
  | function mark entry => cases valid.1
  | plain mark datum => cases valid

theorem State.Sound.returned {state : State} (sound : state.Sound false) (id : ScopeId) :
    (state.heap.get id).returned.Plain := by
  by_cases inside : id < state.heap.scopes.size
  · exact (sound.heap id inside).returned.plain
  · rw [state.heap.get_of_size_le (Nat.le_of_not_lt inside)]
    trivial

/-! ### How many trees a rule evaluates -/

/-- A node is evaluated at the moment. -/
def Moment.visitsTree (moment : Moment) : Bool :=
  match moment.deed with
  | .visit _ object _ => object.isNode
  | _ => false

/-- How many trees a rule evaluates itself, without those within them. -/
def Rule.trees {α : Type} (settings : Settings) (depth : Nat) (rule : Rule α) (frames : List Frame)
    (state : State) : Nat :=
  (rule.ownMoments settings depth frames state).countP Moment.visitsTree

variable {settings : Settings} {depth : Nat} {realm : Realm} {origin state : State}
variable {frames : List Frame} {runtime : RuntimeId} {context : Context} {α β : Type}

namespace Rule

theorem trees_bind_le {rule : Rule α} {f : α → Rule β} {post : α → State → Prop} {a b : Nat}
    (keeps : rule.Keeps (confinement settings realm origin) settings frames state post)
    (first : rule.trees settings depth frames state ≤ a)
    (second : ∀ x after, post x after → (f x).trees settings depth frames after ≤ b) :
    (rule >>= f).trees settings depth frames state ≤ a + b := by
  have result := (keeps.sound (confinement_kept settings realm origin) depth).1
  unfold trees ownMoments at *
  rw [momentsWith_bind, List.countP_append]
  refine Nat.add_le_add first ?_
  generalize rule.run (TreeScript.evaluate depth) settings state = outcome at result ⊢
  rcases outcome with ⟨reason | x, after⟩
  · exact Nat.zero_le b
  · exact second x after (result x after rfl)

theorem Calm.trees {P : α → Prop} {rule : Rule α} (calm : Calm runtime P rule) :
    rule.trees settings depth frames state = 0 := by
  induction calm with
  | done holds => rfl
  | look _ ih => exact ih settings state
  | fail other blames => rfl
  | halt reason => rfl

theorem trees_evaluate (object : Object) :
    (evaluate runtime object context).trees settings depth frames state =
      object.isNode.toNat := by
  simp only [trees, ownMoments, evaluate, momentsWith, List.nil_append]
  rcases TreeScript.evaluate depth runtime object context settings state with ⟨reason | x, after⟩
  · cases isNode : object.isNode <;> simp [Moment.visitsTree, isNode]
  · cases isNode : object.isNode <;> simp [Moment.visitsTree, isNode]

theorem trees_reduceWithin {object : Object} (plain : object.isNode = false) (limit : Int)
    (remaining : Nat) :
    (reduceWithin runtime context limit remaining object).trees settings depth frames state =
      0 := by
  cases remaining <;>
  · unfold reduceWithin
    split
    · rfl
    · rw [if_neg (by simp [plain])]
      rfl

/-- One tree at most is evaluated to get a literal. -/
theorem trees_reduce (active : Active realm origin state runtime context) (node : Node) :
    (reduce runtime context (.ofNode node)).trees settings depth frames state ≤ 1 := by
  change (reduceWithin runtime context settings.stepLimit settings.stepLimit.toNat
    (.ofNode node)).trees settings depth frames state ≤ 1
  cases isNode : (Object.ofNode node).isNode with
  | false =>
      rw [trees_reduceWithin isNode]
      exact Nat.zero_le 1
  | true =>
      cases settings.stepLimit.toNat with
      | zero =>
          unfold reduceWithin
          split
          · exact Nat.zero_le 1
          · rw [if_pos isNode]
            exact Nat.zero_le 1
      | succ remaining =>
          unfold reduceWithin
          split
          · exact Nat.zero_le 1
          · rw [if_pos isNode]
            refine trees_bind_le (a := 1) (b := 0) (confined_evaluate active (.inl isNode)) ?_
              fun x after given => ?_
            · rw [trees_evaluate, isNode]
              exact Nat.le_refl 1
            · exact Nat.le_of_eq (trees_reduceWithin given.2.isNode _ _)

theorem trees_reduceToBlockWithin {object : Object} (plain : object.isNode = false) (limit : Int)
    (remaining : Nat) :
    (reduceToBlockWithin runtime context limit remaining object).trees settings depth frames state =
      0 := by
  cases remaining <;>
  · unfold reduceToBlockWithin
    split
    · cases plain
    · cases plain
    · rfl

/-- One tree at most is evaluated to get a block. -/
theorem trees_reduceToBlock (active : Active realm origin state runtime context) (node : Node) :
    (reduceToBlock runtime context (.ofNode node)).trees settings depth frames state ≤ 1 := by
  change (reduceToBlockWithin runtime context settings.stepLimit settings.stepLimit.toNat
    (.ofNode node)).trees settings depth frames state ≤ 1
  cases settings.stepLimit.toNat with
  | zero =>
      unfold reduceToBlockWithin
      split
      · exact Nat.zero_le 1
      · exact Nat.zero_le 1
      · exact Nat.zero_le 1
  | succ remaining =>
      unfold reduceToBlockWithin
      split
      · refine trees_bind_le (a := 1) (b := 0) (confined_evaluate active (.inl rfl)) ?_
          fun x after given => ?_
        · exact Nat.le_of_eq (trees_evaluate _)
        · exact Nat.le_of_eq (trees_reduceToBlockWithin given.2.isNode _ _)
      · exact Nat.zero_le 1
      · exact Nat.zero_le 1

/-- A block is what it stands for, and nothing is evaluated to get it. -/
theorem trees_reduceToBlock_block (body : List Node) (place : Origin) :
    (reduceToBlock runtime context (.ofNode (.block body place))).trees settings depth frames
      state = 0 := by
  change (reduceToBlockWithin runtime context settings.stepLimit settings.stepLimit.toNat
    (.tree (.block body place))).trees settings depth frames state = 0
  cases settings.stepLimit.toNat with
  | zero => rfl
  | succ remaining => rfl

end Rule

/-! ### The builtins that need a literal or a block -/

/-- The builtin reduces its yield subtree to a literal or to a block. -/
def Builtin.Reduces : Builtin → Prop
  | .defineNow | .set | .obj => True
  | _ => False

namespace Builtin

theorem trees_freshSlot (active : Active realm origin state runtime context) {memory : Object}
    (into : memory.In realm) :
    (freshSlot runtime context memory).trees settings depth frames state ≤ 0 := by
  refine trees_bind_le (a := 0) (b := 0) (confined_evaluate active (.inr into)) ?_
    fun x middle given => ?_
  · rw [trees_evaluate, into.isNode]
    exact Nat.le_refl 0
  · have active' := active.later given.1
    refine trees_bind_le (a := 0) (b := 0) (confined_memoryOf active' given.2)
      (Nat.le_of_eq (calm_memoryOf context x).trees) fun found after _ => ?_
    change Rule.trees settings depth (if after.heap.hasLocal found.2.scope found.1 then
      fail runtime (.alreadyDefined found.1) else pure found.2) frames after ≤ 0
    split
    · exact Nat.le_refl 0
    · exact Nat.le_refl 0

theorem trees_runDefineNow (active : Active realm origin state runtime context) {memory : Object}
    (into : memory.In realm) (yielded : Node) :
    (runDefineNow runtime context memory yielded).trees settings depth frames state ≤ 1 := by
  refine trees_bind_le (a := 0) (b := 1) (confined_freshSlot active into)
    (trees_freshSlot active into) fun slot middle outcome => ?_
  have active' := active.later outcome.1
  refine trees_bind_le (a := 1) (b := 0) (confined_reduce active' yielded)
    (trees_reduce active' yielded) fun value after _ => ?_
  exact Nat.le_refl 0

theorem trees_runSet (active : Active realm origin state runtime context) (memory : Object)
    (yielded : Node) :
    (runSet runtime context memory yielded).trees settings depth frames state ≤ 1 := by
  refine trees_bind_le (a := 0) (b := 1) (confined_boundName realm origin memory)
    (Nat.le_of_eq (calm_boundName memory).trees) fun name same eq => ?_
  subst eq
  refine trees_bind_le (a := 1) (b := 0) (confined_reduce active yielded)
    (trees_reduce active yielded) fun value after _ => ?_
  exact Nat.le_refl 0

/-- What a block is needed for is done with the block in the program. -/
theorem trees_runObj (active : Active realm origin state runtime context) {memory : Object}
    (into : memory.In realm) (yielded : Node) :
    (runObj runtime context memory yielded).trees settings depth frames state ≤ 1 := by
  refine trees_bind_le (a := 0) (b := 1) (confined_memoryOf active into)
    (Nat.le_of_eq (calm_memoryOf context memory).trees) fun found same outcome => ?_
  obtain ⟨rfl, -⟩ := outcome
  by_cases block : ∃ body place, yielded = .block body place
  · obtain ⟨body, place, rfl⟩ := block
    refine trees_bind_le (a := 0) (b := 1) (confined_reduceToBlock active (.block body place))
      (Nat.le_of_eq (trees_reduceToBlock_block body place)) fun block same outcome => ?_
    obtain ⟨rfl, rfl, -⟩ := outcome
    have active' : Active realm origin same runtime { context with returnScope := true } :=
      { active with scope := active.scope, parameters := active.parameters }
    refine trees_bind_le (a := 1) (b := 0) (confined_evaluate active' (.inl rfl))
      (Nat.le_of_eq (trees_evaluate _)) fun space after _ => ?_
    split
    · exact Nat.le_refl 0
    · exact Nat.le_refl 0
  · refine trees_bind_le (a := 1) (b := 0) (confined_reduceToBlock active yielded)
      (trees_reduceToBlock active yielded) fun found same outcome => ?_
    obtain ⟨-, rfl, isBlock⟩ := outcome
    exact absurd isBlock block

end Builtin

theorem Invocation.trees_rule (invocation : Invocation)
    (active : Active realm origin state invocation.runtime invocation.context)
    (into : ∀ x ∈ invocation.arguments, x.In realm) (reduces : invocation.builtin.Reduces) :
    invocation.rule.trees settings depth frames state ≤ 1 := by
  have argument (i : Nat) : (invocation.arguments.getD i .absent).In realm :=
    Builtin.getD_of_forall (Object.in_absent realm) into i
  unfold Invocation.rule
  cases builtin : invocation.builtin with
  | defineNow => exact Builtin.trees_runDefineNow active (argument 0) _
  | set => exact Builtin.trees_runSet active _ _
  | obj => exact Builtin.trees_runObj active (argument 0) _
  | _ =>
      rw [builtin] at reduces
      exact reduces.elim

/-! ### Runs -/

namespace Runner

/-- What is true of the objects in a run: everything that is passed on, given or returned is plain,
in the end as well as at each moment. -/
structure PlainRun (settings : Settings) (depth : Nat) (runner : Runner) (place : Option Place)
    (program : Node) (state : State) : Prop where
  parameters : ∀ m ∈ runner.moments settings depth place program state,
    ∀ runtime object context, m.deed = .visit runtime object context →
      ∀ x ∈ context.parameters, x.Plain
  arguments : ∀ m ∈ runner.moments settings depth place program state,
    ∀ invocation, m.deed = .enter (.builtin invocation) →
      ∀ x ∈ invocation.context.parameters ++ invocation.arguments, x.Plain
  given : ∀ m ∈ runner.moments settings depth place program state,
    ∀ runtime object context, m.deed = .visit runtime object context →
      ∀ x after, evaluate m.depth runtime object context settings m.state = (.ok x, after) →
        x.Plain
  returned : ∀ m ∈ runner.moments settings depth place program state,
    ∀ id, (m.state.heap.get id).returned.Plain
  final : ∀ id, ((runner.evaluateProgram depth place program settings state).2.heap.get
    id).returned.Plain
  result : ∀ x after, runner.evaluateProgram depth place program settings state = (.ok x, after) →
    x.Plain

variable {runner : Runner} {place : Option Place} {program : Node}

/-- A builtin that is carried out in a run stays in the realm of everything. -/
theorem active_of_enters (session : Session false state) (valid : runner.Valid false state)
    {m : Moment} (mem : m ∈ runner.moments settings depth place program state)
    {invocation : Invocation} (enters : m.deed = .enter (.builtin invocation)) :
    Active Realm.whole state m.state invocation.runtime invocation.context ∧
      ∀ x ∈ invocation.arguments, x.In Realm.whole := by
  have proper := (run_sound settings session.sound valid depth place program).proper m mem
  rw [enters] at proper
  obtain ⟨-, invoked, -⟩ := proper
  have confined := Confined.whole session.sound session.housed
  have keeps : (runner.programRule place program).Keeps _ settings [] state _ :=
    confined_programRule confined valid place program
  refine ⟨⟨(keeps.confined confined depth).2 m mem, invoked.runtime_lt, trivial, trivial, ?_⟩, ?_⟩
  · exact fun x mem => ⟨(invoked.context.parameters x mem).isNode, fun _ _ => trivial⟩
  · exact fun x mem => ⟨(invoked.arguments x mem).isNode, fun _ _ => trivial⟩

theorem plainRun (session : Session false state) (valid : runner.Valid false state)
    (settings : Settings) (depth : Nat) (place : Option Place) (program : Node) :
    runner.PlainRun settings depth place program state := by
  have run := run_sound settings session.sound valid depth place program
  constructor
  · intro m mem runtime object context visits x passed
    have proper := run.proper m mem
    rw [visits] at proper
    exact (proper.1.context.parameters x passed).plain
  · intro m mem invocation enters x passed
    have proper := run.proper m mem
    rw [enters] at proper
    obtain ⟨-, invoked, -⟩ := proper
    rcases List.mem_append.mp passed with outer | own
    · exact (invoked.context.parameters x outer).plain
    · exact (invoked.arguments x own).plain
  · intro m mem runtime object context visits x after result
    have proper := run.proper m mem
    rw [visits] at proper
    have kept := (discipline_kept false state.runtimes.size settings).at_depth m.depth
    exact ((kept runtime object context m.frames m.state proper).1 x after result).2.plain
  · exact fun m mem id => (run.sound m mem).returned id
  · exact fun id => run.final.returned id
  · exact fun x after result => (run.result x after result).plain

/-- If at least one step is allowed, then no run fails for want of steps. -/
theorem no_limit (session : Session false state) (valid : runner.Valid false state)
    (enough : 1 ≤ settings.stepLimit) {m : Moment}
    (mem : m ∈ runner.moments settings depth place program state) {runtime : RuntimeId}
    {cause : Cause} {node : Node} (fails : m.deed = .fail runtime cause node) :
    cause.isLimit = false := by
  have confined := Confined.whole session.sound session.housed
  have keeps : (runner.programRule place program).Keeps
      (confinement settings Realm.whole state) settings [] state _ :=
    confined_programRule confined valid place program
  have allowed := (keeps.sound (confinement_kept settings Realm.whole state) depth).2 m mem
  rw [fails] at allowed
  cases limit : cause.isLimit with
  | false => rfl
  | true =>
      have few : settings.stepLimit < 1 := allowed limit
      omega

/-- In a run without a host everything that is passed on, given or returned is plain. No reduction
comes to the step limit if one step is allowed, the builtins that reduce their yield subtree
evaluate one tree at most, and `obj` succeeds only if its yield subtree is a block. -/
theorem run_plain (session : Session false state) (valid : runner.Valid false state)
    (settings : Settings) (depth : Nat) (place : Option Place) (program : Node) :
    runner.PlainRun settings depth place program state ∧
    (1 ≤ settings.stepLimit → ∀ m ∈ runner.moments settings depth place program state,
      ∀ runtime cause node, m.deed = .fail runtime cause node → cause.isLimit = false) ∧
    ∀ m ∈ runner.moments settings depth place program state,
      ∀ invocation, m.deed = .enter (.builtin invocation) →
        (invocation.builtin.Reduces → invocation.rule.trees settings m.depth
          (.builtin invocation :: m.frames) m.state ≤ 1) ∧
        (invocation.builtin = .obj → ∀ x after,
          invocation.rule.run (evaluate m.depth) settings m.state = (.ok x, after) →
            ∃ body origin, invocation.yielded = .block body origin) := by
  refine ⟨plainRun session valid settings depth place program, ?_, ?_⟩
  · exact fun enough m mem runtime cause node fails => no_limit session valid enough mem fails
  · intro m mem invocation enters
    obtain ⟨active, into⟩ := active_of_enters session valid mem enters
    constructor
    · exact fun reduces => invocation.trees_rule active into reduces
    · rintro isObj x after result
      obtain ⟨builtin, runtime, context, arguments, yielded⟩ := invocation
      obtain rfl : builtin = .obj := isObj
      have memory : (arguments.getD 0 .absent).In Realm.whole :=
        Builtin.getD_of_forall (Object.in_absent _) into 0
      have keeps : (Builtin.runObj runtime context (arguments.getD 0 .absent) yielded).Keeps
          (confinement settings Realm.whole state) settings [] m.state _ :=
        Builtin.confined_runObj active memory yielded
      have sound := (keeps.sound (confinement_kept settings Realm.whole state) m.depth).1
      exact (sound x after result).2

end Runner

/-- A block that defines `y` by what a call gives and returns the memory `x`. -/
def Node.returnsMemory : Node :=
  .block [
    .call "defI" [.memory "y" {}] (.call "str" [.number (.int 1) {}] .absent {}) {},
    .call "return" [.memory "x" {}] .absent {}] {}

def Object.isMemory (name : String) : Object → Bool
  | .value (.memory found _) => found == name
  | _ => false

theorem Object.Plain.memory {object : Object} (plain : object.Plain) {name : String}
    (h : object.isMemory name = true) :
    ∃ scope, object = .value (.memory name (some ⟨scope, name⟩)) := by
  unfold isMemory at h
  split at h
  · obtain rfl := beq_iff_eq.mp h
    obtain ⟨scope, rfl⟩ := plain
    exact ⟨scope, rfl⟩
  · cases h

def Moment.enters (builtin : Builtin) (moment : Moment) : Bool :=
  match moment.deed with
  | .enter (.builtin invocation) => invocation.builtin == builtin
  | _ => false

theorem Moment.exists_of_enters {builtin : Builtin} {moments : List Moment}
    (h : moments.any (Moment.enters builtin) = true) :
    ∃ m ∈ moments, ∃ invocation, m.deed = .enter (.builtin invocation) ∧
      invocation.builtin = builtin := by
  obtain ⟨m, mem, enters⟩ := List.any_eq_true.mp h
  unfold Moment.enters at enters
  split at enters
  · rename_i invocation deed
    exact ⟨m, mem, invocation, deed, beq_iff_eq.mp enters⟩
  · cases enters

/-- The memory that the block returns has the slot of its name, `defI` evaluates one tree at most,
and nothing fails for want of steps. -/
theorem Runner.run_plain_memory :
    (∃ scope after, Runner.main.evaluateProgram 8 none .returnsMemory (.quiet .empty) State.fresh =
      (.ok (.value (.memory "x" (some ⟨scope, "x"⟩))), after)) ∧
    (∃ m ∈ Runner.main.moments (.quiet .empty) 8 none .returnsMemory State.fresh, ∃ invocation,
      m.deed = .enter (.builtin invocation) ∧ invocation.builtin = .defineNow ∧
      invocation.rule.trees (.quiet .empty) m.depth (.builtin invocation :: m.frames) m.state ≤ 1) ∧
    ∀ m ∈ Runner.main.moments (.quiet .empty) 8 none .returnsMemory State.fresh,
      ∀ runtime cause node, m.deed = .fail runtime cause node → cause.isLimit = false := by
  obtain ⟨plain, unlimited, invocations⟩ := run_plain (Session.fresh false) (main_valid false)
    (.quiet .empty) 8 none .returnsMemory
  refine ⟨?_, ?_, unlimited (by decide)⟩
  · have returns : (Runner.main.evaluateProgram 8 none .returnsMemory (.quiet .empty)
        State.fresh).1.toOption.any (Object.isMemory "x") = true := by decide +kernel
    have result := plain.result
    generalize Runner.main.evaluateProgram 8 none .returnsMemory (.quiet .empty) State.fresh =
      outcome at returns result ⊢
    obtain ⟨ended, after⟩ := outcome
    cases ended with
    | error reason => cases returns
    | ok x =>
        obtain ⟨scope, rfl⟩ := (result x after rfl).memory returns
        exact ⟨scope, after, rfl⟩
  · have enters : (Runner.main.moments (.quiet .empty) 8 none .returnsMemory State.fresh).any
        (Moment.enters .defineNow) = true := by decide +kernel
    obtain ⟨m, mem, invocation, deed, builtin⟩ := Moment.exists_of_enters enters
    have reduces : invocation.builtin.Reduces := by
      rw [builtin]
      trivial
    exact ⟨m, mem, invocation, deed, builtin, (invocations m mem invocation deed).1 reduces⟩

end TreeScript
