import TreeScript.Proofs.ErrorTraces
import TreeScript.Proofs.Routine

/-!
# The discipline of the call stack

A runtime puts a call on its stack when it enters the call and takes it off when it leaves it,
whether the call returns or not. So between the beginning of an evaluation and any of its moments
every stack has grown by the calls of the frames that are open, and after the evaluation every
stack is what it was. An error that is told by the runtime whose stack holds all the open calls
therefore names first the calls that were active before the evaluation and then those that it
entered, and it is about the last of them.
-/

namespace TreeScript

open Rule

/-- The runtime that works within a frame. What is done for a file is done by a runtime that only
that has. -/
def Frame.walker? : Frame → Option RuntimeId
  | call runtime _ => some runtime
  | builtin invocation => some invocation.runtime
  | loading _ _ => none

/-- One runtime works within all the frames, and no file is being loaded. -/
def Frame.AllOf (runtime : RuntimeId) (frames : List Frame) : Prop :=
  ∀ frame ∈ frames, frame.walker? = some runtime

/-- What is done for one runtime is done by it, as long as no other one works in between. Errors
blame no node of their own but for imports, only calls are put on the stack, and the frame that is
left is the innermost one. All this happens within some outer frames. -/
def telling (runtime : RuntimeId) (outer : List Frame) : Contract where
  allows frames _ deed := match deed with
    | .visit walker _ _ => outer <:+ frames ∧ (Frame.AllOf runtime frames → walker = runtime)
    | .enter (.call _ node) => node.callName?.isSome = true
    | .leave frame => frames.head? = some frame
    | .fail walker cause node =>
        outer <:+ frames ∧ cause.Blames node ∧ (Frame.AllOf runtime frames → walker = runtime)
    | _ => True
  encloses _ _ := True
  gives _ _ _ := True
  allows_leave _ _ _ := List.head?_cons

section

variable {settings : Settings} {runtime walker : RuntimeId} {outer frames : List Frame}
variable {state : State} {α : Type}

/-- A file is loaded by a runtime of its own, which is not asked to be the one. -/
theorem telling_moduleOfFile (within : outer <:+ frames)
    (own : Frame.AllOf runtime frames → walker = runtime) (place : Place) :
    (moduleOfFile walker place).Keeps (telling runtime outer) settings frames state
      fun _ _ => True := by
  simp only [moduleOfFile, keeps_bind, keeps_inspect]
  split
  · trivial
  · simp only [keeps_bind, keeps_inspect]
    split
    · exact ⟨within, rfl, own⟩
    · simp only [keeps_bind, keeps_inspect]
      split
      · split
        · trivial
        · exact ⟨within, rfl, own⟩
      · have foreign : ¬ Frame.AllOf runtime (.loading walker place :: frames) := by
          intro all
          simpa [Frame.walker?] using all _ (List.mem_cons_self ..)
        have deeper := within.trans (List.suffix_cons (.loading walker place) frames)
        simp only [evaluateModule, marked, evaluateFile, keeps_bind, keeps_inspect, keeps_perform,
          keeps_inside, keeps_evaluate, keeps_pure]
        refine ⟨trivial, trivial, ⟨trivial, trivial⟩, trivial, ?_, ?_⟩
        · exact ⟨deeper, fun all => absurd all foreign⟩
        · exact fun _ _ _ => ⟨trivial, trivial, trivial⟩

/-- A rule that works for a runtime keeps the contract. -/
theorem Rule.Routine.telling {loads : Prop} {rule : Rule α}
    (routine : Routine loads walker rule)
    (within : outer <:+ frames) (own : Frame.AllOf runtime frames → walker = runtime) :
    rule.Keeps (telling runtime outer) settings frames state fun _ _ => True := by
  induction routine generalizing frames state with
  | done a => trivial
  | look _ ih => exact ih _ _ within own
  | change _ _ ih => exact ⟨trivial, ih within own⟩
  | fail blames => exact ⟨within, blames, own⟩
  | halt reason => trivial
  | part _ ih => exact ⟨⟨within, own⟩, fun x after _ => ih x within own⟩
  | @call walker α β node body next named _ _ body_ih ih =>
      have deeper := within.trans (List.suffix_cons (.call walker node) frames)
      have own' : Frame.AllOf runtime (.call walker node :: frames) → walker = runtime := by
        intro all
        exact Option.some.inj (all _ (List.mem_cons_self ..))
      refine ⟨⟨named, trivial⟩, (body_ih deeper own').mono fun b after _ => ?_⟩
      exact ih b within own
  | @builtin walker α β invocation body next _ _ body_ih ih =>
      have deeper := within.trans (List.suffix_cons (.builtin invocation) frames)
      have own' : Frame.AllOf runtime (.builtin invocation :: frames) →
          invocation.runtime = runtime := by
        intro all
        exact Option.some.inj (all _ (List.mem_cons_self ..))
      refine ⟨⟨trivial, trivial⟩, (body_ih deeper own').mono fun b after _ => ?_⟩
      exact ih b within own
  | file place _ _ ih =>
      rw [keeps_bind]
      exact (telling_moduleOfFile within own place).mono fun scope after _ => ih scope within own

theorem telling_kept (runtime : RuntimeId) (outer : List Frame) (settings : Settings) :
    (telling runtime outer).Kept settings := by
  intro walker object context frames state allowed
  exact (routine_evaluateStep object).telling allowed.1 allowed.2

end

/-- The frame that a call makes for itself. -/
def Object.ownFrames (runtime : RuntimeId) (object : Object) : List Frame :=
  match object with
  | .tree (.call name parameters yielded origin) =>
      [.call runtime (.call name parameters yielded origin)]
  | _ => []

/-- What a call evaluates lies within its own frame. -/
theorem telling_evaluateStep (settings : Settings) (runtime : RuntimeId) (object : Object)
    (context : Context) (state : State) :
    (evaluateStep runtime object context).Keeps (telling runtime (object.ownFrames runtime))
      settings [] state fun _ _ => True := by
  unfold Object.ownFrames
  split
  · rename_i name parameters yielded origin
    have body : Routine True runtime (resolveAndCall runtime context name parameters yielded) :=
      routine_resolveAndCall name parameters yielded
    refine ⟨trivial, ⟨rfl, trivial⟩, ?_⟩
    refine (body.telling ?_ ?_).mono fun _ _ _ => trivial
    · exact List.suffix_rfl
    · exact fun _ => rfl
  · exact (routine_evaluateStep object).telling List.suffix_rfl fun _ => rfl

/-- At each moment of an evaluation only calls are put on the stack, the frame that is left is the
innermost one, and errors are told by the runtime that works, within the frame of the call that is
evaluated if it is one. -/
theorem partMoments_telling {settings : Settings} {depth : Nat} {runtime : RuntimeId}
    {object : Object} {context : Context} {state : State} :
    ∀ m ∈ partMoments settings depth runtime object context [] state,
      (telling runtime (object.ownFrames runtime)).allows m.frames m.state m.deed := by
  cases depth with
  | zero => simp [partMoments]
  | succ depth =>
      rw [partMoments_succ]
      have kept := telling_kept runtime (object.ownFrames runtime) settings
      exact ((telling_evaluateStep settings runtime object context state).sound kept depth).2

/-! ### The stacks -/

/-- Every stack that was there has grown by the calls of the frames. -/
structure Stacked (before : State) (frames : List Frame) (after : State) : Prop where
  size : before.runtimes.size ≤ after.runtimes.size
  calls : ∀ id, id < before.runtimes.size → (after.runtime id).calls =
    frames.filterMap (Frame.callOf? id) ++ (before.runtime id).calls
  named : ∀ walker node, .call walker node ∈ frames → node.callName?.isSome = true

namespace Stacked

variable {before after : State} {frames : List Frame}

protected theorem refl (state : State) : Stacked state [] state :=
  ⟨Nat.le_refl _, fun _ _ => rfl, by simp⟩

theorem change (stacked : Stacked before frames after) (c : Change) :
    Stacked before frames (c.apply after) where
  size := Nat.le_trans stacked.size (c.apply_grows after).runtimes
  calls id inside := by
    rw [c.calls_apply after (Nat.lt_of_lt_of_le inside stacked.size)]
    exact stacked.calls id inside
  named := stacked.named

theorem enter (stacked : Stacked before frames after) {frame : Frame}
    (call : ∀ walker node, frame = .call walker node → node.callName?.isSome = true) :
    Stacked before (frame :: frames) (frame.enter after) where
  size := Nat.le_trans stacked.size (frame.enter_grows after).runtimes
  calls id inside := by
    have old := stacked.calls id inside
    have inside' := Nat.lt_of_lt_of_le inside stacked.size
    cases frame with
    | call walker node =>
        simp only [Frame.enter, List.filterMap_cons, Frame.callOf?]
        by_cases same : walker = id
        · subst same
          rw [after.runtime_modifyRuntime_self _ inside', old]
          simp
        · rw [after.runtime_modifyRuntime_of_ne _ (Ne.symm same), old]
          simp [same]
    | builtin invocation => exact old
    | loading walker place => exact old
  named walker node mem := by
    rcases List.mem_cons.mp mem with new | mem
    · exact call walker node new.symm
    · exact stacked.named walker node mem

theorem leave {frame : Frame} (stacked : Stacked before (frame :: frames) after) :
    Stacked before frames (frame.leave after) where
  size := Nat.le_trans stacked.size (frame.leave_grows after).runtimes
  calls id inside := by
    have old := stacked.calls id inside
    have inside' := Nat.lt_of_lt_of_le inside stacked.size
    cases frame with
    | call walker node =>
        simp only [Frame.leave]
        simp only [List.filterMap_cons, Frame.callOf?] at old
        by_cases same : walker = id
        · subst same
          rw [after.runtime_modifyRuntime_self _ inside', old]
          simp
        · rw [after.runtime_modifyRuntime_of_ne _ (Ne.symm same), old]
          simp [same]
    | builtin invocation => exact old
    | loading walker place => exact old
  named walker node mem := stacked.named walker node (List.mem_cons_of_mem _ mem)

theorem reportError (stacked : Stacked before frames after) (walker : RuntimeId) (cause : Cause) :
    Stacked before frames (after.reportError walker cause) := by
  unfold State.reportError
  split
  · exact ⟨stacked.size, stacked.calls, stacked.named⟩
  · exact stacked

/-- The stacks follow the frames from one moment to the next, as the frame that is left is the
innermost one. -/
theorem next {moment : Moment} {runtime : RuntimeId} {outer : List Frame}
    (stacked : Stacked before moment.frames moment.state)
    (allowed : (telling runtime outer).allows moment.frames moment.state moment.deed) :
    Stacked before moment.nextFrames moment.nextState := by
  obtain ⟨depth, frames, state, deed⟩ := moment
  cases deed with
  | visit walker object context => exact stacked
  | change c => exact stacked.change c
  | enter frame =>
      refine stacked.enter fun walker node same => ?_
      subst same
      exact allowed
  | leave frame =>
      obtain ⟨rest, rfl⟩ : ∃ rest, frames = frame :: rest := List.head?_eq_some_iff.mp allowed
      exact stacked.leave
  | fail walker cause node => exact stacked.reportError walker cause
  | halt reason => exact stacked

end Stacked

/-- At each moment of an evaluation every stack has grown by the calls of the open frames, and after
it every stack is what it was. -/
theorem evaluate_stacked (settings : Settings) (depth : Nat) (runtime : RuntimeId)
    (object : Object) (context : Context) (state : State) :
    Stacked state [] (evaluate depth runtime object context settings state).2 ∧
      ∀ m ∈ partMoments settings depth runtime object context [] state,
        Stacked state m.frames m.state := by
  have linked := partMoments_linked settings depth runtime object context [] state
  refine linked.invariant (P := Stacked state) (fun m mem stacked => ?_) (.refl state)
  exact stacked.next (partMoments_telling m mem)

/-! ### What errors tell -/

/-- The names on a stack, the outermost first. -/
def Node.stackNames (calls : List Node) : List String := calls.reverse.filterMap Node.callName?

theorem Node.stackNames_append (inner outer : List Node) :
    stackNames (inner ++ outer) = stackNames outer ++ stackNames inner := by
  simp [stackNames]

theorem Node.stackNames_cons {call : Node} (named : call.callName?.isSome = true)
    (rest : List Node) : (stackNames (call :: rest)).getLast? = call.callName? := by
  obtain ⟨name, found⟩ := Option.isSome_iff_exists.mp named
  simp [stackNames, found]

namespace Frame

/-- The calls of the frames, the innermost first. -/
def calls (frames : List Frame) : List Node := (frames.filterMap call?).map (·.2)

theorem calls_append (inner outer : List Frame) :
    calls (inner ++ outer) = calls inner ++ calls outer := by
  simp [calls]

theorem mem_calls {frames : List Frame} {node : Node} (mem : node ∈ calls frames) :
    ∃ walker, .call walker node ∈ frames := by
  obtain ⟨⟨walker, _⟩, found, rfl⟩ := List.mem_map.mp mem
  exact ⟨walker, mem_filterMap_call?.mp found⟩

/-- The frames of one runtime hold calls of that runtime alone. -/
theorem AllOf.calls_eq {runtime : RuntimeId} {frames : List Frame} (all : AllOf runtime frames) :
    frames.filterMap (callOf? runtime) = calls frames := by
  rw [filterMap_callOf?, List.filter_eq_self.mpr]
  · rfl
  · rintro ⟨walker, node⟩ mem
    have walks := all _ (mem_filterMap_call?.mp mem)
    exact beq_iff_eq.mpr (Option.some.inj walks)

end Frame

/-- The name of the call that an object is, if it is one. -/
def Object.callName? : Object → Option String
  | .tree node => node.callName?
  | _ => none

theorem Object.stackNames_ownFrames (runtime : RuntimeId) (object : Object) :
    Node.stackNames (Frame.calls (object.ownFrames runtime)) = object.callName?.toList := by
  unfold ownFrames
  split
  · rfl
  · rename_i other
    cases object with
    | tree node =>
        cases node with
        | call name parameters yielded origin =>
            exact absurd rfl (other name parameters yielded origin)
        | _ => rfl
    | _ => rfl

/-- An error names the calls on a stack and then the call that an object is. Of the calls that are
active, the innermost one comes last in its trace. The error is about that call, unless an import
finds no module; then it is about the import. -/
structure Error.Tells (stack : List Node) (object : Object) (active : List Node)
    (error : Error) : Prop where
  names : Node.stackNames stack ++ object.callName?.toList <+: error.trace
  last : ∀ call rest, active = call :: rest → error.trace.getLast? = call.callName?
  node : ∀ call rest, active = call :: rest → match error.cause with
    | .unknownModule name => ∃ origin, error.node = .moduleImport name origin
    | _ => error.node = call

/-- What a runtime tells when its stack has grown by the calls of some frames. -/
theorem Runtime.error_tells {runtime : Runtime} {stack : List Node} {frames : List Frame}
    {id : RuntimeId} {object : Object} (calls : runtime.calls = Frame.calls frames ++ stack)
    (named : ∀ call ∈ runtime.calls, call.callName?.isSome = true)
    (within : object.ownFrames id <:+ frames) {cause : Cause} {node : Node}
    (blames : cause.Blames node) :
    (runtime.error cause node).Tells stack object (Frame.calls frames ++ stack) where
  names := by
    obtain ⟨inner, rfl⟩ := within
    have trace : (runtime.error cause node).trace = Node.stackNames stack ++
        (object.callName?.toList ++ Node.stackNames (Frame.calls inner)) := by
      change Node.stackNames runtime.calls = _
      rw [calls, Node.stackNames_append, Frame.calls_append, Node.stackNames_append,
        Object.stackNames_ownFrames]
    rw [trace, ← List.append_assoc]
    exact List.prefix_append ..
  last call rest active := by
    have top : runtime.calls = call :: rest := calls.trans active
    have own : call.callName?.isSome = true := named call (by simp [top])
    change (Node.stackNames runtime.calls).getLast? = _
    rw [top]
    exact Node.stackNames_cons own rest
  node call rest active := by
    have top : runtime.calls = call :: rest := calls.trans active
    cases cause with
    | unknownModule name =>
        obtain ⟨origin, rfl⟩ := blames
        exact ⟨origin, rfl⟩
    | _ =>
        obtain rfl : node = .absent := blames
        simp [Runtime.error, top]

/-- An evaluation leaves the stack of every runtime as it was, whether it ends early or not. If a
runtime tells an error while no other runtime works and no file is being loaded, then the evaluation
ends with that error, which names the calls on the stack of the runtime and the call that is
evaluated, and it is about the innermost call that is active. -/
theorem evaluate_keeps_stack (settings : Settings) (depth : Nat) {runtime : RuntimeId}
    (object : Object) (context : Context) {state : State} (inside : runtime < state.runtimes.size)
    (stacked : ∀ call ∈ (state.runtime runtime).calls, call.callName?.isSome = true) :
    (∀ id, id < state.runtimes.size →
      ((evaluate depth runtime object context settings state).2.runtime id).calls =
        (state.runtime id).calls) ∧
    ∀ m ∈ partMoments settings depth runtime object context [] state, ∀ walker cause node,
      m.deed = .fail walker cause node → Frame.AllOf runtime m.frames →
      ∃ error, (evaluate depth runtime object context settings state).1 = .error (.error error) ∧
        error.cause = cause ∧
        error.Tells (state.runtime runtime).calls object
          (Frame.calls m.frames ++ (state.runtime runtime).calls) := by
  obtain ⟨final, middle⟩ := evaluate_stacked settings depth runtime object context state
  refine ⟨fun id inside => final.calls id inside, ?_⟩
  intro m mem walker cause node fails all
  have telling := partMoments_telling m mem
  rw [fails] at telling
  obtain ⟨within, blames, own⟩ := telling
  obtain rfl : walker = runtime := own all
  have grown := middle m mem
  have calls := grown.calls walker inside
  rw [all.calls_eq] at calls
  have named (call : Node) (h : call ∈ (m.state.runtime walker).calls) :
      call.callName?.isSome = true := by
    rw [calls] at h
    rcases List.mem_append.mp h with new | old
    · obtain ⟨caller, found⟩ := Frame.mem_calls new
      exact grown.named caller call found
    · exact stacked call old
  refine ⟨(m.state.runtime walker).error cause node, ?_, rfl, ?_⟩
  · cases depth with
    | zero => simp [partMoments] at mem
    | succ depth => exact Rule.error_of_fail mem fails
  · exact Runtime.error_tells calls named within blames

/-- Whether a runtime tells an error at a moment, and no other one works. -/
def Moment.isFailureWithin (runtime : RuntimeId) (moment : Moment) : Bool :=
  match moment.deed with
  | .fail .. => moment.frames.all fun frame => frame.walker? == some runtime
  | _ => false

theorem Moment.exists_of_isFailureWithin {runtime : RuntimeId} {moment : Moment}
    (h : moment.isFailureWithin runtime = true) :
    ∃ walker cause node, moment.deed = .fail walker cause node ∧
      Frame.AllOf runtime moment.frames := by
  unfold isFailureWithin at h
  split at h
  · rename_i walker cause node fails
    refine ⟨walker, cause, node, fails, fun frame mem => ?_⟩
    exact beq_iff_eq.mp (List.all_eq_true.mp h frame mem)
  · cases h

/-- `sub()` fails while `f` is active. -/
theorem evaluate_keeps_stack_sub :
    let outer : Node := .call "f" [] .absent {}
    let object : Object := .tree (.call "sub" [] .absent {})
    let state : State := Frame.enter State.fresh (.call 0 outer)
    (state.runtime 0).calls = [outer] ∧
    ((evaluate 4 0 object { scope := 0 } (.quiet .empty) state).2.runtime 0).calls = [outer] ∧
    ∃ m ∈ partMoments (.quiet .empty) 4 0 object { scope := 0 } [] state, ∃ error,
      (evaluate 4 0 object { scope := 0 } (.quiet .empty) state).1 = .error (.error error) ∧
      error.Tells [outer] object (Frame.calls m.frames ++ [outer]) := by
  intro outer object state
  have stack : (state.runtime 0).calls = [outer] := rfl
  have found : (partMoments (.quiet .empty) 4 0 object { scope := 0 } [] state).any
      (Moment.isFailureWithin 0) = true := by decide +kernel
  obtain ⟨m, mem, check⟩ := List.any_eq_true.mp found
  obtain ⟨walker, cause, node, fails, all⟩ := Moment.exists_of_isFailureWithin check
  have stacked : ∀ call ∈ (state.runtime 0).calls, call.callName?.isSome = true := by
    simp [stack, outer, Node.callName?]
  obtain ⟨final, errors⟩ := evaluate_keeps_stack (.quiet .empty) 4 object { scope := 0 }
    (by decide : 0 < state.runtimes.size) stacked
  obtain ⟨error, ends, -, tells⟩ := errors m mem walker cause node fails all
  rw [stack] at tells
  exact ⟨stack, (final 0 (by decide)).trans stack, m, mem, error, ends, tells⟩

end TreeScript
