import TreeScript.Proofs.Contract
import TreeScript.Proofs.SoundState

/-!
# The discipline of evaluation

This is the contract that every rule keeps. States are sound at each moment, and whatever is
evaluated, added or yielded is valid in them. A builtin is carried out directly within the call that
called it, and by the runtime that it belongs to; only definitions and settings write, each directly
within its own frame. An error is reported by a runtime that exists, and no end without a report is
an error unless a host raised it.
-/

namespace TreeScript

/-- A later sound state. -/
structure Later (hosted : Bool) (before after : State) : Prop where
  sound : after.Sound hosted
  grows : before.Grows after

namespace Later

variable {hosted : Bool} {a b c : State}

protected theorem refl (sound : a.Sound hosted) : Later hosted a a := ⟨sound, .refl a⟩

protected theorem trans (first : Later hosted a b) (second : Later hosted b c) :
    Later hosted a c :=
  ⟨second.sound, first.grows.trans second.grows⟩

theorem within (later : Later hosted a b) : (a.extent hosted).Within (b.extent hosted) :=
  later.grows.within hosted

theorem change (sound : a.Sound hosted) {c : Change} (safe : c.Safe hosted a) :
    Later hosted a (c.apply a) :=
  ⟨safe.sound sound, c.apply_grows a⟩

theorem enter (sound : a.Sound hosted) (frame : Frame) : Later hosted a (frame.enter a) :=
  ⟨sound.enter frame, frame.enter_grows a⟩

theorem leave (sound : a.Sound hosted) (frame : Frame) : Later hosted a (frame.leave a) :=
  ⟨sound.leave frame, frame.leave_grows a⟩

end Later

/-- A runtime may evaluate in a context, in a run that adds the runtimes from `first` on. Directly
within the frame of a builtin, it is the runtime that the builtin belongs to. -/
structure Ready (hosted : Bool) (first : Nat) (frames : List Frame) (state : State)
    (runtime : RuntimeId) (context : Context) : Prop where
  sound : state.Sound hosted
  first_le : first ≤ state.runtimes.size
  runtime_lt : runtime < state.runtimes.size
  context : context.Valid (state.extent hosted)
  owner : ∀ invocation, frames.head? = some (.builtin invocation) → invocation.runtime = runtime

/-- A builtin may write to a slot: a definition to one that is free when its name is looked at, and
a setting to one that is bound. -/
def Invocation.MayWrite (hosted : Bool) (state : State) (slot : Slot)
    (invocation : Invocation) : Prop :=
  match invocation.builtin with
  | .define => hosted = false → state.heap.isBound slot = false
  | .defineNow => True
  | .set => state.heap.isBound slot = true
  | _ => False

/-- Names are bound by builtins alone, and directly within their frames. The scope of a loaded file
is the root of a runtime that the run has added. -/
def Change.Authorized (hosted : Bool) (first : Nat) (frames : List Frame) (state : State) :
    Change → Prop
  | write slot closure _ =>
      ∃ invocation, frames.head? = some (.builtin invocation) ∧
        invocation.MayWrite hosted state slot ∧ closure = invocation.context.scope
  | keep _ _ scope =>
      ∃ id, first ≤ id ∧ id < state.runtimes.size ∧ (state.runtime id).root = scope
  | _ => True

/-- A builtin with valid arguments in a valid context. -/
structure Invocation.Valid (hosted : Bool) (state : State) (invocation : Invocation) : Prop where
  runtime_lt : invocation.runtime < state.runtimes.size
  context : invocation.context.Valid (state.extent hosted)
  arguments : ∀ x ∈ invocation.arguments, x.Valid (state.extent hosted)

/-- A frame may be entered within others. -/
def Frame.Proper (hosted : Bool) (frames : List Frame) (state : State) : Frame → Prop
  | call runtime node => runtime < state.runtimes.size ∧ node.callName?.isSome = true
  | builtin invocation =>
      invocation.Valid hosted state ∧ ∃ walker node, frames.head? = some (.call walker node)
  | loading runtime _ => runtime < state.runtimes.size

/-- What may be done at a moment. -/
def Deed.Proper (hosted : Bool) (first : Nat) (frames : List Frame) (state : State) : Deed → Prop
  | visit runtime object context =>
      Ready hosted first frames state runtime context ∧ object.Evaluable (state.extent hosted)
  | change c => state.Sound hosted ∧ c.Safe hosted state ∧ c.Authorized hosted first frames state
  | enter frame => state.Sound hosted ∧ frame.Proper hosted frames state
  | leave frame => frames.head? = some frame
  | fail runtime cause node =>
      state.Sound hosted ∧ runtime < state.runtimes.size ∧
        ∀ invocation, frames.head? = some (.builtin invocation) →
          invocation.runtime = runtime ∧ (node = .absent ∨ ∃ name, cause = .unknownModule name)
  | halt reason => state.Sound hosted ∧ (hosted = false → ∀ error, reason ≠ .error error)

/-- Every moment is proper, what is done within the frame of a builtin is its rule, and every part
gives something valid. -/
def discipline (hosted : Bool) (first : Nat) : Contract where
  allows frames state deed := deed.Proper hosted first frames state
  encloses {β} frame body := ∀ invocation, frame = .builtin invocation →
    (⟨β, body⟩ : (γ : Type) × Rule γ) = ⟨Object, invocation.rule⟩
  gives state x after := Later hosted state after ∧ x.Valid (after.extent hosted)
  allows_leave _ _ _ := rfl

namespace Ready

variable {hosted : Bool} {first : Nat} {frames : List Frame} {state after : State}
variable {runtime : RuntimeId} {context : Context}

theorem later (ready : Ready hosted first frames state runtime context)
    (later : Later hosted state after) : Ready hosted first frames after runtime context :=
  ⟨later.sound, Nat.le_trans ready.first_le later.grows.runtimes,
    Nat.lt_of_lt_of_le ready.runtime_lt later.grows.runtimes,
    ready.context.mono later.within, ready.owner⟩

/-- The runtime may evaluate in another valid context as well. -/
theorem inContext (ready : Ready hosted first frames state runtime context) {other : Context}
    (valid : other.Valid (state.extent hosted)) : Ready hosted first frames state runtime other :=
  { ready with context := valid }

theorem visit (ready : Ready hosted first frames state runtime context) {object : Object}
    (h : object.Evaluable (state.extent hosted)) :
    (discipline hosted first).allows frames state (.visit runtime object context) :=
  ⟨ready, h⟩

theorem visitNode (ready : Ready hosted first frames state runtime context) (node : Node) :
    (discipline hosted first).allows frames state (.visit runtime (.ofNode node) context) :=
  ready.visit (Object.evaluable_ofNode _ node)

theorem fail (ready : Ready hosted first frames state runtime context) (cause : Cause) :
    (discipline hosted first).allows frames state (.fail runtime cause .absent) :=
  ⟨ready.sound, ready.runtime_lt, fun invocation h => ⟨ready.owner invocation h, .inl rfl⟩⟩

theorem failure (ready : Ready hosted first frames state runtime context) (reason : Failure) :
    (discipline hosted first).allows frames state (.halt (.failure reason)) :=
  ⟨ready.sound, by simp⟩

end Ready

/-- A safe change that binds no name is allowed. -/
theorem discipline_change {hosted : Bool} {first : Nat} {frames : List Frame} {state : State}
    {c : Change} (sound : state.Sound hosted) (safe : c.Safe hosted state)
    (authorized : c.Authorized hosted first frames state) :
    (discipline hosted first).allows frames state (.change c) :=
  ⟨sound, safe, authorized⟩

/-! ### The shared rules -/

namespace Rule

variable {hosted : Bool} {first : Nat} {settings : Settings} {frames : List Frame} {state : State}
variable {runtime : RuntimeId} {context : Context} {α : Type}

theorem keeps_all (ready : Ready hosted first frames state runtime context) (nodes : List Node) :
    (all runtime context nodes).Keeps (discipline hosted first) settings frames state
      fun xs after => Later hosted state after ∧ ∀ x ∈ xs, x.Valid (after.extent hosted) := by
  induction nodes generalizing state with
  | nil => exact ⟨.refl ready.sound, by simp⟩
  | cons node rest ih =>
      simp only [all, keeps_bind, keeps_evaluate, keeps_pure]
      refine ⟨ready.visitNode node, fun x middle given => ?_⟩
      refine (ih (ready.later given.1)).mono fun xs after later => ?_
      exact ⟨given.1.trans later.1,
        List.forall_mem_cons.mpr ⟨given.2.mono later.1.within, later.2⟩⟩

theorem keeps_each (ready : Ready hosted first frames state runtime context) (nodes : List Node) :
    (each runtime context nodes).Keeps (discipline hosted first) settings frames state
      fun _ after => Later hosted state after := by
  induction nodes generalizing state with
  | nil => exact .refl ready.sound
  | cons node rest ih =>
      simp only [each, keeps_bind, keeps_evaluate]
      refine ⟨ready.visitNode node, fun x middle given => ?_⟩
      exact (ih (ready.later given.1)).mono fun _ after later => given.1.trans later

theorem keeps_last (ready : Ready hosted first frames state runtime context) (nodes : List Node)
    {result : Object} (valid : result.Valid (state.extent hosted)) :
    (last runtime context result nodes).Keeps (discipline hosted first) settings frames state
      ((discipline hosted first).gives state) := by
  induction nodes generalizing state result with
  | nil => exact ⟨.refl ready.sound, valid⟩
  | cons node rest ih =>
      simp only [last, keeps_bind, keeps_evaluate]
      refine ⟨ready.visitNode node, fun x middle given => ?_⟩
      exact (ih (ready.later given.1) given.2).mono fun _ after later =>
        ⟨given.1.trans later.1, later.2⟩

theorem keeps_blockIn (ready : Ready hosted first frames state runtime context) {scope : ScopeId}
    (inside : scope < state.heap.scopes.size) (body : List Node) :
    (blockIn runtime context scope body).Keeps (discipline hosted first) settings frames state
      ((discipline hosted first).gives state) := by
  have valid : Context.Valid (state.extent hosted) { context with scope, returnScope := false } :=
    ⟨inside, ready.context.parameters⟩
  simp only [blockIn, keeps_bind]
  refine (keeps_each (ready.inContext valid) body).mono fun _ after later => ?_
  have inside' := Nat.lt_of_lt_of_le inside later.grows.heap.size
  split
  · exact ⟨later, inside'⟩
  · exact ⟨later, (later.sound.heap scope inside').returned⟩

theorem keeps_reduceWithin (ready : Ready hosted first frames state runtime context) (limit : Int)
    (remaining : Nat) {object : Object} (valid : object.Evaluable (state.extent hosted)) :
    (reduceWithin runtime context limit remaining object).Keeps (discipline hosted first) settings
      frames state fun value after =>
        Later hosted state after ∧ value.Valid (after.extent hosted) := by
  induction remaining generalizing state object with
  | zero =>
      unfold reduceWithin
      split
      · exact ⟨.refl ready.sound, valid.resolve_left (by simp [Object.isNode])⟩
      · split
        · exact ready.fail _
        · exact ready.fail _
  | succ remaining ih =>
      unfold reduceWithin
      split
      · exact ⟨.refl ready.sound, valid.resolve_left (by simp [Object.isNode])⟩
      · split
        · simp only [keeps_bind, keeps_evaluate]
          refine ⟨ready.visit valid, fun x middle given => ?_⟩
          exact (ih (ready.later given.1) (.inr given.2)).mono fun _ after later =>
            ⟨given.1.trans later.1, later.2⟩
        · exact ready.fail _

theorem keeps_reduce (ready : Ready hosted first frames state runtime context) (node : Node) :
    (reduce runtime context (.ofNode node)).Keeps (discipline hosted first) settings frames state
      fun value after => Later hosted state after ∧ value.Valid (after.extent hosted) := by
  simp only [reduce, keeps_bind, keeps_inspect]
  exact keeps_reduceWithin ready _ _ (Object.evaluable_ofNode _ node)

theorem keeps_reduceToBlockWithin (ready : Ready hosted first frames state runtime context)
    (limit : Int) (remaining : Nat) (object : Object) :
    (reduceToBlockWithin runtime context limit remaining object).Keeps (discipline hosted first)
      settings frames state fun block after =>
        Later hosted state after ∧ ∃ body origin, block = .block body origin := by
  induction remaining generalizing state object with
  | zero =>
      unfold reduceToBlockWithin
      split
      · exact ready.fail _
      · exact ⟨.refl ready.sound, _, _, rfl⟩
      · exact ready.fail _
  | succ remaining ih =>
      unfold reduceToBlockWithin
      split
      · simp only [keeps_bind, keeps_evaluate]
        refine ⟨ready.visit (.inl rfl), fun x middle given => ?_⟩
        exact (ih (ready.later given.1) x).mono fun _ after outcome =>
          ⟨given.1.trans outcome.1, outcome.2⟩
      · exact ⟨.refl ready.sound, _, _, rfl⟩
      · exact ready.fail _

theorem keeps_reduceToBlock (ready : Ready hosted first frames state runtime context)
    (object : Object) :
    (reduceToBlock runtime context object).Keeps (discipline hosted first) settings frames state
      fun block after => Later hosted state after ∧ ∃ body origin, block = .block body origin := by
  simp only [reduceToBlock, keeps_bind, keeps_inspect]
  exact keeps_reduceToBlockWithin ready _ _ object

theorem keeps_trace (sound : state.Sound hosted) (line : String) :
    (trace line).Keeps (discipline hosted first) settings frames state fun _ after =>
      Later hosted state after := by
  simp only [trace, keeps_bind, keeps_inspect]
  split
  · exact ⟨discipline_change sound trivial trivial, .change sound trivial⟩
  · exact .refl sound

theorem keeps_ofArithmetic (ready : Ready hosted first frames state runtime context)
    {result : Except ArithmeticFault α} {post : α → State → Prop} (h : ∀ a, post a state) :
    (ofArithmetic result).Keeps (discipline hosted first) settings frames state post := by
  cases result with
  | ok a => exact h a
  | error fault => exact ready.failure _

/-- A memory has a slot that exists. Without a host it is the slot of its name. -/
theorem keeps_memoryOf (ready : Ready hosted first frames state runtime context) {object : Object}
    (valid : object.Valid (state.extent hosted)) {post : String × Slot → State → Prop}
    (h : ∀ name slot, slot.scope < state.heap.scopes.size → (hosted = false → slot.name = name) →
      post (name, slot) state) :
    (memoryOf runtime context object).Keeps (discipline hosted first) settings frames state
      post := by
  unfold memoryOf
  split
  · rename_i name slot
    cases slot with
    | none => exact h name ⟨context.scope, name⟩ ready.context.scope fun _ => rfl
    | some slot => exact h name slot valid.1 valid.2
  · exact ready.fail _

theorem keeps_truthOf (ready : Ready hosted first frames state runtime context) (object : Object)
    {post : Bool → State → Prop} (h : ∀ b, post b state) :
    (truthOf runtime object).Keeps (discipline hosted first) settings frames state post := by
  unfold truthOf
  split
  · exact h _
  · exact ready.fail _

theorem keeps_displayed (ready : Ready hosted first frames state runtime context) (object : Object)
    {post : String → State → Prop} (h : ∀ text, post text state) :
    (displayed object).Keeps (discipline hosted first) settings frames state post := by
  unfold displayed
  split
  · exact h _
  · exact ready.failure _

end Rule

end TreeScript
