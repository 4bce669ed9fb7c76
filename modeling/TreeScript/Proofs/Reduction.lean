import TreeScript.Proofs.Session

/-!
# The reduction to a literal

An object is evaluated, then what came out of that, and so on. The reduction to a literal follows
this course up to the first object that is no node: a value is the result, and anything else is a
type error. If the objects are still nodes when the step limit is reached, that is an error, too,
and an evaluation that ends early ends the reduction. In each case the reduction makes the
evaluations of the course up to that point and no others. Nothing is asked of the evaluator, so the
functions of a host may give any nodes.
-/

namespace TreeScript

/-! ### What a rule evaluates -/

/-- One evaluation that a rule asks for, and the state in which it begins. -/
structure Visit where
  runtime : RuntimeId
  object : Object
  context : Context
  state : State

namespace Rule

variable {α β : Type} (evaluator : Evaluator) (settings : Settings)

/-- The evaluations that a rule asks for, in order. -/
def visits : {α : Type} → Rule α → State → List Visit
  | _, done _, _ => []
  | _, look view next, state => (next (view settings state)).visits state
  | _, change c next, state => next.visits (c.apply state)
  | _, fail .., _ => []
  | _, halt _, _ => []
  | _, part runtime object context next, state =>
      ⟨runtime, object, context, state⟩ ::
        match evaluator runtime object context settings state with
        | (.ok x, state) => (next x).visits state
        | (.error _, _) => []
  | _, within frame body next, state =>
      body.visits (frame.enter state) ++
        match body.run evaluator settings (frame.enter state) with
        | (.ok b, state) => (next b).visits (frame.leave state)
        | (.error _, _) => []

end Rule

/-! ### The course of a reduction -/

/-- What comes of an object after a number of evaluations. Each of them evaluates what came out of
the one before it, and the first that ends early ends the course. -/
def Evaluator.course (evaluator : Evaluator) (runtime : RuntimeId) (context : Context)
    (object : Object) : Nat → Action Object
  | 0 => return object
  | count + 1 => do
      let x ← evaluator.course runtime context object count
      evaluator runtime x context

section

variable (evaluator : Evaluator) (settings : Settings) (runtime : RuntimeId) (context : Context)
variable (object : Object) (state : State)

/-- The first objects of a course are nodes. -/
def Evaluator.GivesNodes (count : Nat) : Prop :=
  ∀ i < count, ∃ x before,
    evaluator.course runtime context object i settings state = (.ok x, before) ∧ x.isNode = true

/-- The evaluations are the first ones of a course, and no others. -/
def Evaluator.Follows (count : Nat) (visits : List Visit) : Prop :=
  visits.length = count ∧ ∀ i < count, ∃ x before,
    evaluator.course runtime context object i settings state = (.ok x, before) ∧
      visits[i]? = some ⟨runtime, x, context, before⟩

end

variable {evaluator : Evaluator} {settings : Settings} {runtime : RuntimeId} {context : Context}
variable {object x next : Object} {state after ended : State} {limit : Int} {count : Nat}

/-- A course evaluates the object and goes on with the course of what came out. -/
theorem Evaluator.course_succ (count : Nat) :
    evaluator.course runtime context object (count + 1) =
      evaluator runtime object context >>= fun next =>
        evaluator.course runtime context next count := by
  induction count with
  | zero => simp only [course, pure_bind, bind_pure]
  | succ count ih =>
      rw [course, ih, bind_assoc]
      rfl

theorem Evaluator.course_of_ok
    (first : evaluator runtime object context settings state = (.ok next, after)) (count : Nat) :
    evaluator.course runtime context object (count + 1) settings state =
      evaluator.course runtime context next count settings after := by
  rw [course_succ, Action.bind_apply, first]

/-- Whatever a course reaches later, its first evaluation has given something. -/
theorem Evaluator.exists_of_course
    (reached : evaluator.course runtime context object (count + 1) settings state =
      (.ok x, ended)) :
    ∃ next after, evaluator runtime object context settings state = (.ok next, after) := by
  rw [course_succ, Action.bind_apply] at reached
  split at reached
  · exact ⟨_, _, ‹_›⟩
  · cases reached

theorem Evaluator.GivesNodes.first
    (nodes : evaluator.GivesNodes settings runtime context object state (count + 1)) :
    object.isNode = true := by
  obtain ⟨x, before, same, isNode⟩ := nodes 0 (Nat.succ_pos count)
  cases same
  exact isNode

theorem Evaluator.GivesNodes.rest
    (nodes : evaluator.GivesNodes settings runtime context object state (count + 1))
    (first : evaluator runtime object context settings state = (.ok next, after)) :
    evaluator.GivesNodes settings runtime context next after count := by
  intro i less
  obtain ⟨x, before, reached, isNode⟩ := nodes (i + 1) (Nat.succ_lt_succ less)
  exact ⟨x, before, (Evaluator.course_of_ok first i).symm.trans reached, isNode⟩

theorem Evaluator.Follows.cons {visits : List Visit}
    (first : evaluator runtime object context settings state = (.ok next, after))
    (rest : evaluator.Follows settings runtime context next after count visits) :
    evaluator.Follows settings runtime context object state (count + 1)
      (⟨runtime, object, context, state⟩ :: visits) := by
  refine ⟨by simp [rest.1], fun i less => ?_⟩
  cases i with
  | zero => exact ⟨object, state, rfl, rfl⟩
  | succ i =>
      obtain ⟨x, before, reached, there⟩ := rest.2 i (Nat.lt_of_succ_lt_succ less)
      exact ⟨x, before, (Evaluator.course_of_ok first i).trans reached, by simpa using there⟩

theorem Evaluator.GivesNodes.concat
    (nodes : evaluator.GivesNodes settings runtime context object state count)
    (reached : evaluator.course runtime context object count settings state = (.ok x, ended))
    (isNode : x.isNode = true) :
    evaluator.GivesNodes settings runtime context object state (count + 1) := by
  intro i less
  rcases Nat.lt_succ_iff_lt_or_eq.mp less with earlier | rfl
  · exact nodes i earlier
  · exact ⟨x, ended, reached, isNode⟩

theorem Evaluator.Follows.concat {visits : List Visit}
    (follows : evaluator.Follows settings runtime context object state count visits)
    (reached : evaluator.course runtime context object count settings state = (.ok x, ended)) :
    evaluator.Follows settings runtime context object state (count + 1)
      (visits ++ [⟨runtime, x, context, ended⟩]) := by
  obtain ⟨length, there⟩ := follows
  refine ⟨by simp [length], fun i less => ?_⟩
  rcases Nat.lt_succ_iff_lt_or_eq.mp less with earlier | rfl
  · obtain ⟨y, before, reached, found⟩ := there i earlier
    exact ⟨y, before, reached, by rwa [List.getElem?_append_left (length ▸ earlier)]⟩
  · exact ⟨x, ended, reached, by simp [← length]⟩

/-- Up to any bound, a course gives something other than a node, or it ends early, or it gives nodes
throughout. -/
theorem Evaluator.course_cases (evaluator : Evaluator) (settings : Settings) (runtime : RuntimeId)
    (context : Context) (object : Object) (state : State) (bound : Nat) :
    let course (count : Nat) := evaluator.course runtime context object count settings state
    let GivesNodes := evaluator.GivesNodes settings runtime context object state
    (∃ count ≤ bound, GivesNodes count ∧ ∃ x ended, course count = (.ok x, ended) ∧
        x.isNode = false) ∨ GivesNodes (bound + 1) ∨
      ∃ count < bound, GivesNodes (count + 1) ∧ ∃ reason ended,
        course (count + 1) = (.error reason, ended) := by
  intro course GivesNodes
  have nothing : GivesNodes 0 := fun i less => absurd less (Nat.not_lt_zero i)
  induction bound with
  | zero =>
      have start : course 0 = (.ok object, state) := rfl
      cases isNode : object.isNode with
      | true => exact .inr (.inl (nothing.concat start isNode))
      | false => exact .inl ⟨0, Nat.le_refl 0, nothing, object, state, start, isNode⟩
  | succ bound ih =>
      rcases ih with ⟨count, le, found⟩ | nodes | ⟨count, less, found⟩
      · exact .inl ⟨count, Nat.le_succ_of_le le, found⟩
      · cases outcome : course (bound + 1) with
        | mk result ended =>
            cases result with
            | error reason =>
                exact .inr (.inr ⟨bound, Nat.lt_succ_self bound, nodes, reason, ended, outcome⟩)
            | ok x =>
                cases isNode : x.isNode with
                | true => exact .inr (.inl (nodes.concat outcome isNode))
                | false => exact .inl ⟨bound + 1, Nat.le_refl _, nodes, x, ended, outcome, isNode⟩
      · exact .inr (.inr ⟨count, Nat.lt_succ_of_lt less, found⟩)

namespace Rule

/-! ### The steps of a reduction -/

/-- An object that is no node ends a reduction, whatever steps remain. -/
theorem reduceWithin_of_isNode_eq_false (plain : object.isNode = false) (remaining : Nat) :
    reduceWithin runtime context limit remaining object = match object with
      | .value value => done value
      | object => fail runtime (.expectedLiteral object.kindName) := by
  unfold reduceWithin
  cases object with
  | value value => rfl
  | _ => simp only [plain, Bool.false_eq_true, if_false]

theorem reduceWithin_zero (isNode : object.isNode = true) :
    reduceWithin runtime context limit 0 object = fail runtime (.literalLimit limit) := by
  cases object <;> simp_all [reduceWithin, Object.isNode]

theorem reduceWithin_succ (isNode : object.isNode = true) (remaining : Nat) :
    reduceWithin runtime context limit (remaining + 1) object =
      part runtime object context (reduceWithin runtime context limit remaining) := by
  cases object with
  | tree node =>
      simp only [reduceWithin, isNode, if_true]
      rfl
  | _ => cases isNode

/-- While a course gives nodes, a reduction follows it. -/
theorem reduceWithin_follows (limit : Int)
    (nodes : evaluator.GivesNodes settings runtime context object state count)
    (reached : evaluator.course runtime context object count settings state = (.ok x, ended))
    (remaining : Nat) :
    (reduceWithin runtime context limit (remaining + count) object).run evaluator settings state =
        (reduceWithin runtime context limit remaining x).run evaluator settings ended ∧
      ∃ visits, evaluator.Follows settings runtime context object state count visits ∧
        (reduceWithin runtime context limit (remaining + count) object).visits evaluator settings
          state =
          visits ++ (reduceWithin runtime context limit remaining x).visits evaluator settings
            ended := by
  induction count generalizing object state with
  | zero =>
      cases reached
      exact ⟨rfl, [], ⟨rfl, fun i less => absurd less (Nat.not_lt_zero i)⟩, rfl⟩
  | succ count ih =>
      obtain ⟨next, after, first⟩ := Evaluator.exists_of_course reached
      rw [Evaluator.course_of_ok first] at reached
      obtain ⟨same, visits, follows, more⟩ := ih (nodes.rest first) reached
      rw [← Nat.add_assoc, reduceWithin_succ nodes.first]
      simp only [run, Rule.visits, first]
      exact ⟨same, _, follows.cons first, by rw [more, List.cons_append]⟩

/-- A rule ended with a type error of the cause, which was reported in the state it ended in. The
errors of a step limit are marked as such. -/
structure EndsInTypeError {α : Type} (runtime : RuntimeId) (ended : State) (cause : Cause)
    (isLimit : Bool) (outcome : Except Interrupt α × State) : Prop where
  raised : outcome.1 = .error (.error ((ended.runtime runtime).error cause .absent))
  reported : outcome.2 = ended.reportError runtime cause
  kind : cause.kind = .type
  limit : cause.isLimit = isLimit

theorem endsInTypeError_fail {α : Type} {cause : Cause} (kind : cause.kind = .type) :
    EndsInTypeError runtime ended cause cause.isLimit
      ((fail runtime cause : Rule α).run evaluator settings ended) :=
  ⟨rfl, rfl, kind, rfl⟩

/-- What an object that is no node becomes at the end of a reduction. -/
def EndsWith (runtime : RuntimeId) (ended : State) (x : Object)
    (outcome : Except Interrupt Value × State) : Prop :=
  match x with
  | .value value => outcome = (.ok value, ended)
  | x => EndsInTypeError runtime ended (.expectedLiteral x.kindName) false outcome

/-- A reduction to a literal makes evaluations of the course of its object, at most as many as the
step limit says; a negative limit counts as zero. If the course gives nodes up to an object within
the limit that is no node, then exactly the evaluations up to there are made. The object is the
result if it is a value, and otherwise it is a type error that it is no literal. If the object at
the limit is a node like all those before it, then exactly as many evaluations are made as the limit
says, and that the limit is reached is the error. If an evaluation within the limit ends early, then
the reduction ends with it, for the same reason and in the same state. One of these is always the
case. -/
theorem reduce_iterates (evaluator : Evaluator) (settings : Settings) (runtime : RuntimeId)
    (context : Context) (object : Object) (state : State) :
    let bound := settings.stepLimit.toNat
    let course (count : Nat) := evaluator.course runtime context object count settings state
    let GivesNodes := evaluator.GivesNodes settings runtime context object state
    let Follows := evaluator.Follows settings runtime context object state
    let visits := (reduce runtime context object).visits evaluator settings state
    let outcome := (reduce runtime context object).run evaluator settings state
    (∀ count ≤ bound, GivesNodes count → ∀ x ended, course count = (.ok x, ended) →
        x.isNode = false → Follows count visits ∧ EndsWith runtime ended x outcome) ∧
      (GivesNodes (bound + 1) → Follows bound visits ∧ ∃ x ended, course bound = (.ok x, ended) ∧
        EndsInTypeError runtime ended (.literalLimit settings.stepLimit) true outcome) ∧
      (∀ count < bound, GivesNodes (count + 1) → ∀ reason ended,
        course (count + 1) = (.error reason, ended) →
          Follows (count + 1) visits ∧ outcome = (.error reason, ended)) ∧
      ((∃ count ≤ bound, GivesNodes count ∧ ∃ x ended, course count = (.ok x, ended) ∧
          x.isNode = false) ∨ GivesNodes (bound + 1) ∨
        ∃ count < bound, GivesNodes (count + 1) ∧ ∃ reason ended,
          course (count + 1) = (.error reason, ended)) := by
  intro bound course GivesNodes Follows visits outcome
  have prefixed (count : Nat) (le : count ≤ bound) (nodes : GivesNodes count) (x : Object)
      (before : State) (reached : course count = (.ok x, before)) :
      outcome = (reduceWithin runtime context settings.stepLimit (bound - count) x).run evaluator
          settings before ∧
        ∃ first, Follows count first ∧ visits = first ++
          (reduceWithin runtime context settings.stepLimit (bound - count) x).visits evaluator
            settings before := by
    have followed := reduceWithin_follows settings.stepLimit nodes reached (bound - count)
    rwa [Nat.sub_add_cancel le] at followed
  refine ⟨?_, ?_, ?_, evaluator.course_cases settings runtime context object state bound⟩
  · intro count le nodes x ended reached plain
    obtain ⟨same, first, follows, all⟩ := prefixed count le nodes x ended reached
    rw [reduceWithin_of_isNode_eq_false plain] at same all
    cases x with
    | value value => exact ⟨by rwa [all, Rule.visits, List.append_nil], same⟩
    | _ => exact ⟨by rwa [all, Rule.visits, List.append_nil], same ▸ endsInTypeError_fail rfl⟩
  · intro nodes
    obtain ⟨x, ended, reached, isNode⟩ := nodes bound (Nat.lt_succ_self bound)
    have earlier : GivesNodes bound := fun i less => nodes i (Nat.lt_succ_of_lt less)
    obtain ⟨same, first, follows, all⟩ := prefixed bound (Nat.le_refl bound) earlier x ended reached
    rw [Nat.sub_self, reduceWithin_zero isNode] at same all
    refine ⟨by rwa [all, Rule.visits, List.append_nil], x, ended, reached, ?_⟩
    exact same ▸ endsInTypeError_fail rfl
  · intro count less nodes reason ended reached
    obtain ⟨x, before, last, isNode⟩ := nodes count (Nat.lt_succ_self count)
    have earlier : GivesNodes count := fun i less => nodes i (Nat.lt_succ_of_lt less)
    have early : evaluator runtime x context settings before = (.error reason, ended) := by
      simpa only [course, Evaluator.course, Action.bind_apply, last] using reached
    obtain ⟨same, first, follows, all⟩ := prefixed count (Nat.le_of_lt less) earlier x before last
    have steps : bound - count = bound - (count + 1) + 1 := by omega
    rw [steps, reduceWithin_succ isNode] at same all
    simp only [run, Rule.visits, early] at same all
    exact ⟨all ▸ follows.concat last, same⟩

/-- Whether an evaluation gave a node. -/
def givesNode (result : Except Interrupt Object) : Bool :=
  match result with
  | .ok x => x.isNode
  | .error _ => false

theorem exists_of_givesNode {outcome : Except Interrupt Object × State}
    (gives : givesNode outcome.1 = true) :
    ∃ x before, outcome = (.ok x, before) ∧ x.isNode = true := by
  obtain ⟨reason | x, before⟩ := outcome
  · cases gives
  · exact ⟨x, before, rfl, gives⟩

/-- The integer that came out, if one did. -/
def givenInteger? : Except Interrupt Object → Option Int
  | .ok (.value (.number (.int i))) => some i
  | _ => none

theorem exists_of_givenInteger? {outcome : Except Interrupt Object × State} {i : Int}
    (given : givenInteger? outcome.1 = some i) :
    ∃ ended, outcome = (.ok (.value (.number (.int i))), ended) := by
  obtain ⟨result, ended⟩ := outcome
  unfold givenInteger? at given
  split at given
  next integer =>
    cases given
    exact ⟨ended, congrArg (·, ended) integer⟩
  · cases given

/-- The argument of the function around is a call that was not evaluated yet. Two evaluations give
its value, and with one the limit is reached. -/
theorem reduce_iterates_parameter :
    let sum : Object := .tree (.call "add" [.number (.int 1) {}, .number (.int 1) {}] .absent {})
    let object : Object := .tree (.call "param" [.number (.int 0) {}] .absent {})
    let context : Context := { scope := 0, parameters := [sum] }
    let settings (limit : Int) : Settings :=
      { stepLimit := limit, tracing := false, files := .empty }
    let visits (limit : Int) :=
      (reduce 0 context object).visits (TreeScript.evaluate 4) (settings limit) State.fresh
    let outcome (limit : Int) :=
      (reduce 0 context object).run (TreeScript.evaluate 4) (settings limit) State.fresh
    ((visits 2).length = 2 ∧ (outcome 2).1 = .ok (.number (.int 2))) ∧
      (visits 1).length = 1 ∧
        ∃ error, (outcome 1).1 = .error (.error error) ∧ error.cause = .literalLimit 1 := by
  intro sum object context settings visits outcome
  let course (limit : Int) (count : Nat) := (TreeScript.evaluate 4).course 0 context object count
    (settings limit) State.fresh
  have start (limit : Int) : course limit 0 = (.ok object, State.fresh) := rfl
  have nodes (limit : Int) (next : givesNode (course limit 1).1 = true) (i : Nat) (less : i < 2) :
      ∃ x before, course limit i = (.ok x, before) ∧ x.isNode = true := by
    rcases (by omega : i = 0 ∨ i = 1) with rfl | rfl
    · exact ⟨_, _, start limit, rfl⟩
    · exact exists_of_givesNode next
  constructor
  · have given : givenInteger? (course 2 2).1 = some 2 := by decide +kernel
    obtain ⟨ended, reached⟩ := exists_of_givenInteger? given
    obtain ⟨settled, -⟩ := reduce_iterates (TreeScript.evaluate 4) (settings 2) 0 context object
      State.fresh
    obtain ⟨follows, ends⟩ :=
      settled 2 (Nat.le_refl 2) (nodes 2 (by decide +kernel)) _ ended reached rfl
    exact ⟨follows.1, congrArg Prod.fst ends⟩
  · obtain ⟨-, limited, -⟩ := reduce_iterates (TreeScript.evaluate 4) (settings 1) 0 context object
      State.fresh
    obtain ⟨follows, x, ended, -, ends⟩ := limited (nodes 1 (by decide +kernel))
    exact ⟨follows.1, _, ends.raised, rfl⟩

end Rule

end TreeScript
