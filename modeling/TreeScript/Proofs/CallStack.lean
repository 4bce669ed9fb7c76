import TreeScript.Proofs.Soundness

/-!
# The active calls

A runtime keeps a list of its own active calls. The frames of a moment hold the active calls of all
runtimes together, in the order in which they were entered. At each moment of a run that begins
without active calls, every runtime lists exactly those of its own frames, and a builtin is carried
out directly within a call.
-/

namespace TreeScript

namespace Frame

/-- The call of a frame, with the runtime that evaluates it. -/
def call? : Frame → Option (RuntimeId × Node)
  | call runtime node => some (runtime, node)
  | _ => none

/-- The call of a frame, if the runtime evaluates it. -/
def callOf? (runtime : RuntimeId) : Frame → Option Node
  | call walker node => if walker = runtime then some node else none
  | _ => none

/-- A builtin is carried out directly within a call. -/
def Nested : List Frame → Prop
  | [] => True
  | builtin _ :: rest => (∃ walker node, rest.head? = some (.call walker node)) ∧ Nested rest
  | _ :: rest => Nested rest

theorem Nested.tail {frame : Frame} {frames : List Frame} (nested : Nested (frame :: frames)) :
    Nested frames := by
  cases frame with
  | builtin invocation => exact nested.2
  | call runtime node => exact nested
  | loading runtime place => exact nested

end Frame

/-- The calls that a runtime lists are those of its frames, the innermost first. -/
structure Tracked (frames : List Frame) (state : State) : Prop where
  calls : ∀ runtime, runtime < state.runtimes.size →
    (state.runtime runtime).calls = frames.filterMap (Frame.callOf? runtime)
  callers : ∀ runtime node, .call runtime node ∈ frames →
    runtime < state.runtimes.size ∧ node.callName?.isSome = true
  nested : Frame.Nested frames

namespace State

/-- No runtime has an active call. -/
def Idle (state : State) : Prop :=
  ∀ runtime, runtime < state.runtimes.size → (state.runtime runtime).calls = []

theorem Idle.tracked {state : State} (idle : state.Idle) : Tracked [] state :=
  ⟨idle, by simp, trivial⟩

theorem runtimes_print (state : State) (id : RuntimeId) (text : String) :
    (state.print id text).runtimes = state.runtimes := by
  unfold State.print
  split <;> rfl

end State

theorem Change.calls_apply (state : State) (c : Change) {runtime : RuntimeId}
    (h : runtime < state.runtimes.size) :
    ((c.apply state).runtime runtime).calls = (state.runtime runtime).calls := by
  cases c with
  | visit walker node =>
      refine state.view_modifyRuntime Runtime.calls walker (fun _ => ?_) runtime
      rfl
  | addRuntime importer directory =>
      exact congrArg Runtime.calls (state.runtime_addRuntime_of_lt _ _ _ _ h)
  | print id text => simp only [Change.apply, State.runtime, State.runtimes_print]
  | register registry name source =>
      simp only [Change.apply]
      split <;> rfl
  | _ => rfl

/-- Only a module brings a runtime. -/
theorem Change.size_runtimes (state : State) (c : Change) :
    (c.apply state).runtimes.size = state.runtimes.size ∨
      ∃ importer directory, c = .addRuntime importer directory := by
  cases c with
  | addRuntime importer directory => exact .inr ⟨importer, directory, rfl⟩
  | visit walker node => exact .inl (state.size_modifyRuntime ..)
  | print id text => exact .inl (congrArg Array.size (state.runtimes_print id text))
  | register registry name source =>
      simp only [Change.apply]
      split <;> exact .inl rfl
  | _ => exact .inl rfl

/-- A runtime that a change adds has no active call. -/
theorem Change.calls_new (state : State) (c : Change) {runtime : RuntimeId}
    (old : state.runtimes.size ≤ runtime) (new : runtime < (c.apply state).runtimes.size) :
    ((c.apply state).runtime runtime).calls = [] := by
  rcases c.size_runtimes state with same | ⟨importer, directory, rfl⟩
  · exact absurd (same ▸ new) (Nat.not_lt_of_le old)
  · rw [Change.size_addRuntime] at new
    obtain rfl := Nat.le_antisymm (Nat.le_of_lt_succ new) old
    rw [Change.runtime_addRuntime]

namespace Tracked

variable {hosted : Bool} {first : Nat} {frames : List Frame} {state after : State}

/-- Without a change of the frames, it is enough that no list of calls changes. -/
theorem same (tracked : Tracked frames state) (size : after.runtimes.size = state.runtimes.size)
    (calls : ∀ runtime, runtime < state.runtimes.size →
      (after.runtime runtime).calls = (state.runtime runtime).calls) : Tracked frames after where
  calls runtime h := (calls runtime (size ▸ h)).trans (tracked.calls runtime (size ▸ h))
  callers runtime node h := by
    rw [size]
    exact tracked.callers runtime node h
  nested := tracked.nested

theorem change (tracked : Tracked frames state) (c : Change) :
    Tracked frames (c.apply state) where
  calls runtime h := by
    by_cases old : runtime < state.runtimes.size
    · rw [c.calls_apply state old]
      exact tracked.calls runtime old
    · -- No frame is a call of a runtime that was not there.
      rw [c.calls_new state (Nat.le_of_not_lt old) h, eq_comm, List.filterMap_eq_nil_iff]
      intro frame mem
      cases frame with
      | call walker node =>
          have : walker ≠ runtime := fun same => old (same ▸ (tracked.callers walker node mem).1)
          simp [Frame.callOf?, this]
      | builtin invocation => rfl
      | loading runtime place => rfl
  callers runtime node h := by
    obtain ⟨inside, isCall⟩ := tracked.callers runtime node h
    exact ⟨Nat.lt_of_lt_of_le inside (c.apply_grows state).runtimes, isCall⟩
  nested := tracked.nested

theorem enter (tracked : Tracked frames state) {frame : Frame}
    (proper : frame.Proper hosted frames state) :
    Tracked (frame :: frames) (frame.enter state) := by
  cases frame with
  | builtin invocation =>
      exact ⟨tracked.calls, fun r n h => tracked.callers r n (by simpa using h),
        proper.2, tracked.nested⟩
  | loading walker place =>
      exact ⟨tracked.calls, fun r n h => tracked.callers r n (by simpa using h), tracked.nested⟩
  | call walker node =>
      refine ⟨fun runtime h => ?_, fun r n h => ?_, tracked.nested⟩
      · simp only [Frame.enter, State.size_modifyRuntime] at h ⊢
        by_cases same : runtime = walker
        · subst same
          rw [state.runtime_modifyRuntime_self _ h, tracked.calls runtime h]
          simp [Frame.callOf?]
        · rw [state.runtime_modifyRuntime_of_ne _ same, tracked.calls runtime h]
          simp [Frame.callOf?, Ne.symm same]
      · simp only [Frame.enter, State.size_modifyRuntime]
        rcases List.mem_cons.mp h with new | old
        · cases new
          exact proper
        · exact tracked.callers r n old

theorem leave {frame : Frame} (tracked : Tracked (frame :: frames) state) :
    Tracked frames (frame.leave state) := by
  have callers (r : RuntimeId) (n : Node) (h : .call r n ∈ frames) :=
    tracked.callers r n (List.mem_cons_of_mem _ h)
  cases frame with
  | builtin invocation => exact ⟨tracked.calls, callers, tracked.nested.tail⟩
  | loading walker place => exact ⟨tracked.calls, callers, tracked.nested.tail⟩
  | call walker node =>
      refine ⟨fun runtime h => ?_, fun r n h => ?_, tracked.nested.tail⟩
      · simp only [Frame.leave, State.size_modifyRuntime] at h ⊢
        have calls := tracked.calls runtime h
        by_cases same : runtime = walker
        · subst same
          rw [state.runtime_modifyRuntime_self _ h, calls]
          simp [Frame.callOf?]
        · rw [state.runtime_modifyRuntime_of_ne _ same, calls]
          simp [Frame.callOf?, Ne.symm same]
      · simp only [Frame.leave, State.size_modifyRuntime]
        exact callers r n h

/-- The calls stay tracked at a proper moment. -/
theorem next {moment : Moment} (tracked : Tracked moment.frames moment.state)
    (proper : moment.deed.Proper hosted first moment.frames moment.state) :
    Tracked moment.nextFrames moment.nextState := by
  obtain ⟨depth, frames, state, deed⟩ := moment
  cases deed with
  | visit runtime object context => exact tracked
  | change c => exact tracked.change c
  | enter frame => exact tracked.enter proper.2
  | leave frame =>
      obtain ⟨rest, rfl⟩ : ∃ rest, frames = frame :: rest := List.head?_eq_some_iff.mp proper
      exact tracked.leave
  | fail runtime cause node =>
      simp only [Moment.nextFrames, Moment.nextState, State.reportError]
      split
      · exact tracked.same rfl fun _ _ => rfl
      · exact tracked
  | halt reason => exact tracked

end Tracked

/-! ### Runs -/

namespace Runner

variable {hosted : Bool} {settings : Settings} {state : State} {runner : Runner}

/-- At each moment of a run that begins without active calls, and at its end, the calls are
tracked. -/
theorem run_tracked (sound : state.Sound hosted) (valid : runner.Valid hosted state)
    (idle : state.Idle) (depth : Nat) (place : Option Place) (program : Node) :
    (runner.evaluateProgram depth place program settings state).2.Idle ∧
    ∀ m ∈ runner.moments settings depth place program state, Tracked m.frames m.state := by
  have proper := (run_sound settings sound valid depth place program).proper
  have linked := runner.moments_linked settings depth place program state
  obtain ⟨final, middle⟩ := linked.invariant
    (fun m mem tracked => Tracked.next tracked (proper m mem)) idle.tracked
  exact ⟨final.calls, middle⟩

end Runner

end TreeScript
