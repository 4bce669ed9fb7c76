import TreeScript.Proofs.Session

/-!
# What definitions overwrite

`def` and `defI` look whether their name is free and write to its slot later on. Nothing happens in
between for `def`, which so never overwrites anything. `defI` evaluates its yield subtree in
between, and the write goes to a bound slot exactly when that evaluation has itself defined the
slot: `defI <x>: ( defI <x>: 1 ; 2 )` does so.
-/

namespace TreeScript

/-- A definition binds the slot at this moment. -/
def Moment.Defines (slot : Slot) (moment : Moment) : Prop :=
  (∃ closure body, moment.deed = .change (.write slot closure body)) ∧
    ∃ invocation, moment.frames.head? = some (.builtin invocation) ∧
      (invocation.builtin = .define ∨ invocation.builtin = .defineNow)

/-- Without a host, a slot of a scope that exists is bound by writing to it and in no other way. -/
theorem Change.isBound_apply {state : State} {c : Change} (safe : c.Safe false state) {slot : Slot}
    (inside : slot.scope < state.heap.scopes.size) :
    (c.apply state).heap.isBound slot = true ↔
      state.heap.isBound slot = true ∨ ∃ closure body, c = .write slot closure body := by
  have same
      (functions : ((c.apply state).heap.get slot.scope).functions =
        (state.heap.get slot.scope).functions)
      (other : ∀ closure body, c ≠ .write slot closure body) :
      (c.apply state).heap.isBound slot = true ↔
        state.heap.isBound slot = true ∨ ∃ closure body, c = .write slot closure body := by
    simp [Heap.isBound, Heap.hasLocal, functions, other]
  cases c with
  | write other closure body =>
      rw [Change.apply, State.modifyHeap, Heap.isBound_bind _ _ _ _ inside, or_comm]
      refine or_congr_right ⟨?_, ?_⟩
      · rintro rfl
        exact ⟨closure, body, rfl⟩
      · rintro ⟨_, _, ⟨⟩⟩
        rfl
  | openScope parent =>
      exact same (congrArg Scope.functions (Heap.get_alloc_of_lt _ _ inside)) (by simp)
  | addRuntime importer directory =>
      exact same (congrArg Scope.functions (Heap.get_alloc_of_lt _ _ inside)) (by simp)
  | setReturned scope returned =>
      refine same (Heap.view_modify Scope.functions _ scope (fun _ => ?_) _) (by simp)
      rfl
  | attach scope name child =>
      refine same (Heap.view_modify Scope.functions _ scope (fun _ => ?_) _) (by simp)
      rfl
  | print runtime text =>
      refine same ?_ (by simp)
      simp only [Change.apply, State.print]
      split <;> rfl
  | register _ _ _ | build _ | settle _ _ _ => exact absurd safe.1 (by simp)
  | visit _ _ | trace _ | mark _ | begin _ | finish _ | keep _ _ _ | runFactory _ =>
      exact same rfl (by simp)

/-- At a proper moment a free slot is bound by a definition and in no other way. -/
theorem Moment.isBound_next {first : Nat} {moment : Moment}
    (proper : moment.deed.Proper false first moment.frames moment.state) {slot : Slot}
    (inside : slot.scope < moment.state.heap.scopes.size)
    (free : moment.state.heap.isBound slot = false) :
    moment.nextState.heap.isBound slot = true ↔ moment.Defines slot := by
  obtain ⟨depth, frames, state, deed⟩ := moment
  have unchanged (same : (Moment.nextState ⟨depth, frames, state, deed⟩).heap = state.heap)
      (other : ∀ closure body, deed ≠ .change (.write slot closure body)) :
      (Moment.nextState ⟨depth, frames, state, deed⟩).heap.isBound slot = true ↔
        Moment.Defines slot ⟨depth, frames, state, deed⟩ := by
    simp only at free
    simp [same, free, Moment.Defines, other]
  cases deed with
  | change c =>
      obtain ⟨-, safe, authorized⟩ := proper
      simp only at free inside
      simp only [Moment.nextState, Change.isBound_apply safe inside, free, Moment.Defines]
      refine ⟨?_, ?_⟩
      · rintro (⟨⟨⟩⟩ | ⟨closure, body, rfl⟩)
        obtain ⟨invocation, frame, may, -⟩ := authorized
        refine ⟨⟨closure, body, rfl⟩, invocation, frame, ?_⟩
        -- A setting writes to bound slots only.
        unfold Invocation.MayWrite at may
        split at may
        · exact .inl ‹_›
        · exact .inr ‹_›
        · simp [free] at may
        · exact may.elim
      · rintro ⟨⟨closure, body, ⟨⟩⟩, -⟩
        exact .inr ⟨closure, body, rfl⟩
  | enter frame => exact unchanged (by cases frame <;> rfl) (by simp)
  | leave frame => exact unchanged (by cases frame <;> rfl) (by simp)
  | fail runtime cause node =>
      refine unchanged ?_ (by simp)
      simp only [Moment.nextState, State.reportError]
      split <;> rfl
  | visit _ _ _ | halt _ => exact unchanged rfl (by simp)

/-- A free slot is bound after some moments exactly when one of them defines it. -/
theorem Linked.isBound_iff {first : Nat} {frames frames' : List Frame} {state state' : State}
    {moments : List Moment} (linked : Linked frames state moments frames' state')
    (proper : ∀ m ∈ moments, m.deed.Proper false first m.frames m.state) {slot : Slot}
    (inside : slot.scope < state.heap.scopes.size) (free : state.heap.isBound slot = false) :
    state'.heap.isBound slot = true ↔ ∃ m ∈ moments, m.Defines slot := by
  induction linked with
  | nil => simp [free]
  | @cons moment rest frames' state' linked ih =>
      obtain ⟨here, later⟩ := List.forall_mem_cons.mp proper
      have next := Moment.isBound_next here inside free
      have inside' := Nat.lt_of_lt_of_le inside moment.grows.heap.size
      simp only [List.mem_cons, or_and_right, exists_or, exists_eq_left, ← next]
      by_cases bound : moment.nextState.heap.isBound slot = true
      · simp [bound, linked.grows.1.isBound inside' bound]
      · simp [bound, ih later inside' (by simpa using bound)]

/-- What is defined at a moment stays bound. -/
theorem Linked.bound_of_defines {first : Nat} {frames frames' : List Frame} {state state' : State}
    {moments : List Moment} (linked : Linked frames state moments frames' state') {m : Moment}
    (mem : m ∈ moments) (proper : m.deed.Proper false first m.frames m.state) {slot : Slot}
    (defines : m.Defines slot) : state'.heap.isBound slot = true := by
  have grows := (linked.grows.2 m mem).2
  obtain ⟨⟨closure, body, deed⟩, -⟩ := defines
  obtain ⟨depth, frames, state, deed'⟩ := m
  subst deed
  obtain ⟨-, safe, -⟩ := proper
  refine grows.isBound (Nat.lt_of_lt_of_le safe.1 (Change.apply_grows _ _).heap.size) ?_
  exact (Change.isBound_apply safe safe.1).mpr (.inr ⟨closure, body, rfl⟩)

/-! ### What a definition does -/

/-- After it is entered, a builtin returns, and the last thing it does is to write to a slot. What
it does before that is given. -/
structure Moment.WritesLast (settings : Settings) (entry : Moment) (invocation : Invocation)
    (earlier : List Moment) (write : Moment) (slot : Slot) : Prop where
  enters : entry.deed = .enter (.builtin invocation)
  returns : ∃ x,
    (invocation.rule.run (evaluate entry.depth) settings entry.state).1 = .ok x
  moments : invocation.rule.moments settings entry.depth (.builtin invocation :: entry.frames)
    entry.state = earlier ++ [write]
  writes : ∃ body, write.deed = .change (.write slot invocation.context.scope body)

namespace Builtin

variable {settings : Settings} {depth : Nat} {frames : List Frame} {state : State}
variable {runtime : RuntimeId} {context : Context} {memory : Object} {yielded : Node} {x : Object}

/-- `def` looks for its slot and writes to it. -/
theorem moments_runDefine
    (returns : ((runDefine runtime context memory yielded).run (TreeScript.evaluate depth) settings
      state).1 = .ok x) :
    ∃ slot middle,
      (freshSlot runtime context memory).run (TreeScript.evaluate depth) settings state =
        (.ok slot, middle) ∧
      (runDefine runtime context memory yielded).moments settings depth frames state =
        (freshSlot runtime context memory).moments settings depth frames state ++
          [⟨depth, frames, middle, .change (.write slot context.scope (.ofNode yielded))⟩] := by
  obtain ⟨slot, middle, found, -⟩ := Rule.run_bind_ok (Prod.ext returns rfl)
  exact ⟨slot, middle, found, Rule.moments_bind found⟩

/-- `defI` looks for its slot, evaluates its yield subtree, and writes to the slot. -/
theorem moments_runDefineNow
    (returns : ((runDefineNow runtime context memory yielded).run (TreeScript.evaluate depth)
      settings state).1 = .ok x) :
    ∃ slot middle value last,
      (freshSlot runtime context memory).run (TreeScript.evaluate depth) settings state =
        (.ok slot, middle) ∧
      (Rule.reduce runtime context (.ofNode yielded)).run (TreeScript.evaluate depth) settings
        middle = (.ok value, last) ∧
      (runDefineNow runtime context memory yielded).moments settings depth frames state =
        (freshSlot runtime context memory).moments settings depth frames state ++
          ((Rule.reduce runtime context (.ofNode yielded)).moments settings depth frames middle ++
            [⟨depth, frames, last, .change (.write slot context.scope (.value value))⟩]) := by
  obtain ⟨slot, middle, found, rest⟩ := Rule.run_bind_ok (Prod.ext returns rfl)
  obtain ⟨value, last, reduced, -⟩ := Rule.run_bind_ok rest
  exact ⟨slot, middle, value, last, found, reduced,
    (Rule.moments_bind found).trans (congrArg _ (Rule.moments_bind reduced))⟩

/-- The slot that a definition finds is free then, and nothing has defined it before. -/
theorem freshSlot_free (ready : Ready false 0 frames state runtime context)
    (valid : memory.Valid (state.extent false)) {slot : Slot} {middle : State}
    (found : (freshSlot runtime context memory).run (TreeScript.evaluate depth) settings state =
      (.ok slot, middle)) :
    Later false state middle ∧ slot.scope < middle.heap.scopes.size ∧
      middle.heap.isBound slot = false ∧
      ∀ d ∈ (freshSlot runtime context memory).moments settings depth frames state,
        ¬ d.Defines slot := by
  obtain ⟨result, proper⟩ :=
    (keeps_freshSlot ready valid).sound (discipline_kept false 0 settings) depth
  obtain ⟨later, inside, free⟩ := result slot middle found
  refine ⟨later, inside, free rfl, fun d mem defines => ?_⟩
  have linked := Rule.moments_linked settings depth (freshSlot runtime context memory) frames state
  rw [found] at linked
  have bound := linked.bound_of_defines mem (proper d mem) defines
  simp [free rfl] at bound

theorem runDefine_writes (ready : Ready false 0 frames state runtime context)
    (valid : memory.Valid (state.extent false))
    (returns : ((runDefine runtime context memory yielded).run (TreeScript.evaluate depth) settings
      state).1 = .ok x) :
    ∃ earlier write slot,
      (runDefine runtime context memory yielded).moments settings depth frames state =
        earlier ++ [write] ∧
      (∃ body, write.deed = .change (.write slot context.scope body)) ∧ write.frames = frames ∧
      write.state.heap.isBound slot = false ∧ ∀ d ∈ earlier, ¬ d.Defines slot := by
  obtain ⟨slot, middle, found, moments⟩ := moments_runDefine returns
  obtain ⟨-, -, free, unseen⟩ := freshSlot_free ready valid found
  exact ⟨_, _, slot, moments, ⟨_, rfl⟩, rfl, free, unseen⟩

theorem runDefineNow_writes (ready : Ready false 0 frames state runtime context)
    (valid : memory.Valid (state.extent false))
    (returns : ((runDefineNow runtime context memory yielded).run (TreeScript.evaluate depth)
      settings state).1 = .ok x) :
    ∃ earlier write slot,
      (runDefineNow runtime context memory yielded).moments settings depth frames state =
        earlier ++ [write] ∧
      (∃ body, write.deed = .change (.write slot context.scope body)) ∧ write.frames = frames ∧
      (write.state.heap.isBound slot = false ↔ ∀ d ∈ earlier, ¬ d.Defines slot) := by
  obtain ⟨slot, middle, value, last, found, reduced, moments⟩ := moments_runDefineNow returns
  obtain ⟨later, inside, free, unseen⟩ := freshSlot_free ready valid found
  have proper := ((Rule.keeps_reduce (ready.later later) yielded).sound
    (discipline_kept false 0 settings) depth).2
  have linked := Rule.moments_linked settings depth
    (Rule.reduce runtime context (.ofNode yielded)) frames middle
  rw [reduced] at linked
  rw [← List.append_assoc] at moments
  refine ⟨_, _, slot, moments, ⟨_, rfl⟩, rfl, ?_⟩
  rw [← Bool.not_eq_true, linked.isBound_iff proper inside free]
  simp only [not_exists, not_and, List.forall_mem_append]
  exact ⟨fun none => ⟨unseen, none⟩, fun none => none.2⟩

end Builtin

/-- A definition that returns writes to a slot at its very end. The slot is free then exactly when
nothing that was done in between has defined it, which is always so for `def`. -/
theorem Moment.definition_writes {settings : Settings} {first : Nat} {entry : Moment}
    {invocation : Invocation} (enters : entry.deed = .enter (.builtin invocation))
    (proper : entry.deed.Proper false first entry.frames entry.state)
    (kind : invocation.builtin = .define ∨ invocation.builtin = .defineNow) {x : Object}
    (returns : (invocation.rule.run (evaluate entry.depth) settings entry.state).1 = .ok x) :
    ∃ earlier write slot, entry.WritesLast settings invocation earlier write slot ∧
      write.frames = .builtin invocation :: entry.frames ∧
      (write.state.heap.isBound slot = false ↔ ∀ d ∈ earlier, ¬ d.Defines slot) ∧
      (invocation.builtin = .define → write.state.heap.isBound slot = false) := by
  rw [enters] at proper
  obtain ⟨sound, valid, -⟩ := proper
  have ready : Ready false 0 (.builtin invocation :: entry.frames) entry.state _ _ :=
    Invocation.ready sound (Nat.zero_le _) valid
  rcases kind with define | defineNow
  · have rule : invocation.rule = Builtin.runDefine invocation.runtime invocation.context
        (invocation.arguments.getD 0 .absent) invocation.yielded := by
      simp only [Invocation.rule, Builtin.run, define]
    obtain ⟨earlier, write, slot, moments, writes, frames, free, unseen⟩ :=
      Builtin.runDefine_writes ready (valid.argument 0) (rule ▸ returns)
    exact ⟨earlier, write, slot, ⟨enters, ⟨x, returns⟩, rule ▸ moments, writes⟩, frames,
      iff_of_true free unseen, fun _ => free⟩
  · have rule : invocation.rule = Builtin.runDefineNow invocation.runtime invocation.context
        (invocation.arguments.getD 0 .absent) invocation.yielded := by
      simp only [Invocation.rule, Builtin.run, defineNow]
    obtain ⟨earlier, write, slot, moments, writes, frames, iff⟩ :=
      Builtin.runDefineNow_writes ready (valid.argument 0) (rule ▸ returns)
    exact ⟨earlier, write, slot, ⟨enters, ⟨x, returns⟩, rule ▸ moments, writes⟩, frames, iff,
      by simp [defineNow]⟩

/-- In a run without a host, a definition that returns writes to a free slot exactly when nothing
between its beginning and the write has defined that slot. `def` always does. -/
theorem Runner.definition_free_iff {settings : Settings} {depth : Nat} {runner : Runner}
    {place : Option Place} {program : Node} {state : State} (session : Session false state)
    (valid : runner.Valid false state) {entry : Moment}
    (mem : entry ∈ runner.moments settings depth place program state) {invocation : Invocation}
    (enters : entry.deed = .enter (.builtin invocation))
    (kind : invocation.builtin = .define ∨ invocation.builtin = .defineNow) {x : Object}
    (returns : (invocation.rule.run (evaluate entry.depth) settings entry.state).1 = .ok x) :
    ∃ earlier write slot before after,
      runner.moments settings depth place program state =
        before ++ entry :: (earlier ++ write :: after) ∧
      entry.WritesLast settings invocation earlier write slot ∧
      (write.state.heap.isBound slot = false ↔ ∀ d ∈ earlier, ¬ d.Defines slot) ∧
      (invocation.builtin = .define → write.state.heap.isBound slot = false) := by
  have run := Runner.run_sound settings session.sound valid depth place program
  obtain ⟨earlier, write, slot, last, -, iff, define⟩ :=
    Moment.definition_writes enters (run.proper entry mem) kind returns
  obtain ⟨before, after, eq⟩ := run.builtins entry mem invocation enters
  rw [last.moments, List.append_assoc, List.singleton_append] at eq
  exact ⟨earlier, write, slot, before, after, eq, last, iff, define⟩

/-- Whether a moment enters a `defI` that returns. -/
def Moment.returningDefinition (settings : Settings) (entry : Moment) : Bool :=
  match entry.deed with
  | .enter (.builtin invocation) => decide (invocation.builtin = .defineNow) &&
      (invocation.rule.run (evaluate entry.depth) settings entry.state).1.isOk
  | _ => false

theorem Moment.exists_of_returningDefinition {settings : Settings} {entry : Moment}
    (h : entry.returningDefinition settings = true) :
    ∃ invocation x, entry.deed = .enter (.builtin invocation) ∧
      invocation.builtin = .defineNow ∧
      (invocation.rule.run (evaluate entry.depth) settings entry.state).1 = .ok x := by
  unfold returningDefinition at h
  split at h
  · rename_i invocation enters
    simp only [Bool.and_eq_true, decide_eq_true_eq] at h
    cases outcome : (invocation.rule.run (evaluate entry.depth) settings entry.state).1 with
    | error reason => simp [outcome, Except.isOk, Except.toBool] at h
    | ok x => exact ⟨invocation, x, enters, h.1, outcome⟩
  · cases h

/-- `defI <x>: 1` writes to a free slot. -/
theorem Runner.definition_free_iff_literal :
    let program : Node := .call "defI" [.memory "x" {}] (.number (.int 1) {}) {}
    ∃ entry invocation earlier write slot,
      entry ∈ Runner.main.moments (.quiet .empty) 12 none program State.fresh ∧
      entry.WritesLast (.quiet .empty) invocation earlier write slot ∧
      (write.state.heap.isBound slot = false ↔ ∀ d ∈ earlier, ¬ d.Defines slot) := by
  intro program
  have found : (Runner.main.moments (.quiet .empty) 12 none program State.fresh).any
      (Moment.returningDefinition (.quiet .empty)) = true := by decide +kernel
  obtain ⟨entry, mem, check⟩ := List.any_eq_true.mp found
  obtain ⟨invocation, x, enters, kind, returns⟩ := Moment.exists_of_returningDefinition check
  obtain ⟨earlier, write, slot, -, -, -, last, iff, -⟩ := Runner.definition_free_iff
    (Session.fresh false) (Runner.main_valid false) mem enters (.inr kind) returns
  exact ⟨entry, invocation, earlier, write, slot, mem, last, iff⟩

/-- The document `defI <x>: ( defI <x>: 1 ; 2 )`. -/
def Node.nestedDefinition : Node :=
  .call "defI" [.memory "x" {}]
    (.group [.call "defI" [.memory "x" {}] (.number (.int 1) {}) {}, .number (.int 2) {}] {}) {}

/-- Whether a moment enters a `defI` that returns after it has written to a bound slot. -/
def Moment.overwrites (settings : Settings) (entry : Moment) : Bool :=
  entry.returningDefinition settings && match entry.deed with
    | .enter (.builtin invocation) =>
        match (invocation.rule.moments settings entry.depth (.builtin invocation :: entry.frames)
          entry.state).getLast? with
        | some ⟨_, _, state, .change (.write slot _ _)⟩ => state.heap.isBound slot
        | _ => false
    | _ => false

/-- A definition within the yield subtree of another one of the same name is overwritten by it. -/
theorem Runner.nested_definition_overwrites :
    ∃ entry invocation earlier write slot,
      entry ∈ Runner.main.moments (.quiet .empty) 12 none Node.nestedDefinition State.fresh ∧
      invocation.builtin = .defineNow ∧
      entry.WritesLast (.quiet .empty) invocation earlier write slot ∧
      write.state.heap.isBound slot = true := by
  have found : (Runner.main.moments (.quiet .empty) 12 none Node.nestedDefinition State.fresh).any
      (Moment.overwrites (.quiet .empty)) = true := by decide +kernel
  obtain ⟨entry, mem, check⟩ := List.any_eq_true.mp found
  obtain ⟨check, bound⟩ := Bool.and_eq_true_iff.mp check
  obtain ⟨invocation, x, enters, kind, returns⟩ := Moment.exists_of_returningDefinition check
  have run := Runner.run_sound (.quiet .empty) (Session.fresh false).sound
    (Runner.main_valid false) 12 none Node.nestedDefinition
  obtain ⟨earlier, write, slot, last, -⟩ :=
    Moment.definition_writes enters (run.proper entry mem) (.inr kind) returns
  refine ⟨entry, invocation, earlier, write, slot, mem, kind, last, ?_⟩
  obtain ⟨depth, frames, state, deed⟩ := write
  obtain ⟨body, rfl⟩ : ∃ body, deed = .change (.write slot invocation.context.scope body) :=
    last.writes
  simpa [enters, last.moments] using bound

end TreeScript
