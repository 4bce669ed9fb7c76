import TreeScript.Proofs.Framing
import TreeScript.Proofs.RunCustody

/-!
# Printing

An execution of `print` evaluates its argument and then, if that gives something that can be
displayed, prints the text of it and is done. So a completed execution prints one text, last of all,
and whatever else is printed meanwhile belongs to executions of its own within the evaluation of the
argument. The other way round, no text is printed but by a completed execution.
-/

namespace TreeScript

/-- The runtime that prints at a moment, and the text. -/
def Moment.printed? (moment : Moment) : Option (RuntimeId × String) :=
  match moment.deed with
  | .change (.print runtime text) => some (runtime, text)
  | _ => none

theorem Moment.printed?_eq_some {moment : Moment} {runtime : RuntimeId} {text : String} :
    moment.printed? = some (runtime, text) ↔ moment.deed = .change (.print runtime text) := by
  obtain ⟨depth, frames, state, deed⟩ := moment
  constructor
  · intro found
    unfold printed? at found
    split at found
    · rename_i deed
      cases found
      exact deed
    · cases found
  · rintro rfl
    rfl

/-- Nothing is printed directly within the frames. -/
def Quiet (frames : List Frame) (moments : List Moment) : Prop :=
  ∀ q ∈ moments, q.printed? ≠ none → q.frames ≠ frames

/-- An execution of `print` that is entered at a moment `m` and completed: its last moment `p`
prints what its argument is displayed as, and it prints nothing else itself. -/
structure Invocation.Prints (settings : Settings) (invocation : Invocation) (m : Moment)
    (inner : List Moment) (p : Moment) (text : String) : Prop where
  builtin : invocation.builtin = .print
  enters : m.deed = .enter (.builtin invocation)
  moments : invocation.rule.moments settings m.depth (.builtin invocation :: m.frames) m.state =
    inner ++ [p]
  quiet : Quiet (.builtin invocation :: m.frames) inner
  framed : p.frames = .builtin invocation :: m.frames
  prints : p.printed? = some (invocation.runtime, text)
  result : invocation.rule.run (evaluate m.depth) settings m.state = (.ok .absent, p.nextState)
  displayed : ∃ x, evaluate m.depth invocation.runtime (invocation.arguments.getD 0 .absent)
    invocation.context settings m.state = (.ok x, p.state) ∧ text = Layout.display x

variable {settings : Settings} {depth : Nat} {frames : List Frame} {state : State}
variable {runtime : RuntimeId} {context : Context}

/-- A part prints nothing directly within the frames around it. -/
theorem partMoments_quiet (object : Object) :
    Quiet frames (partMoments settings depth runtime object context frames state) := by
  intro p mem prints same
  obtain ⟨⟨owner, text⟩, printed⟩ := Option.ne_none_iff_exists'.mp prints
  have kept : (custody fun _ => True).KeptAt settings depth :=
    (custody_kept (Node.hereditary_of_forall fun _ => trivial) fun _ _ _ _ _ _ => trivial).at_depth
      depth
  -- Without the frames around, a text that is printed has a frame of a builtin all the same.
  have shifted := partMoments_under settings depth frames runtime object context [] state
  rw [List.nil_append] at shifted
  rw [shifted] at mem
  obtain ⟨q, inner, rfl⟩ := List.mem_map.mp mem
  have held := (kept runtime object context [] state ⟨state.carries_of_forall fun _ => trivial,
    object.carries_of_forall fun _ => trivial, context.carries_of_forall fun _ => trivial⟩).2 q
    inner
  have deed : q.deed = .change (.print owner text) := Moment.printed?_eq_some.mp printed
  rw [deed] at held
  obtain ⟨-, invocation, head, -⟩ := held
  have none : q.frames = [] := List.append_left_eq_self.mp same
  rw [none] at head
  cases head

/-- What `print` does: it evaluates its argument, and then it prints and is done, or it ends early
and prints nothing. -/
theorem Builtin.runPrint_cases (settings : Settings) (depth : Nat) (frames : List Frame)
    (state : State) (runtime : RuntimeId) (context : Context) (value : Object) :
    ∃ before last, (runPrint runtime context value).moments settings depth frames state =
        before ++ last ∧ Quiet frames before ∧
      ((∃ x middle, evaluate depth runtime value context settings state = (.ok x, middle) ∧
          last = [⟨depth, frames, middle, .change (.print runtime (Layout.display x))⟩] ∧
          (runPrint runtime context value).run (evaluate depth) settings state =
            (.ok .absent, middle.print runtime (Layout.display x))) ∨
        (Quiet frames last ∧
          ∃ reason after, (runPrint runtime context value).run (evaluate depth) settings state =
            (.error reason, after))) := by
  have unfolded : runPrint runtime context value = .part runtime value context fun x =>
      Rule.displayed x >>= fun text => .change (.print runtime text) (.done .absent) := rfl
  have evaluated : Quiet frames (⟨depth, frames, state, .visit runtime value context⟩ ::
      partMoments settings depth runtime value context frames state) :=
    List.forall_mem_cons.mpr ⟨fun prints => absurd rfl prints, partMoments_quiet value⟩
  simp only [unfolded, Rule.moments, Rule.momentsWith, Rule.run]
  generalize TreeScript.evaluate depth runtime value context settings state = outcome
  refine ⟨_, _, (List.cons_append ..).symm, evaluated, ?_⟩
  obtain ⟨reason | x, middle⟩ := outcome
  · exact .inr ⟨by simp [Quiet], reason, middle, rfl⟩
  · by_cases writable : (x.value?.map Value.writable).getD true = true
    · have shown : Rule.displayed x = pure (Layout.display x) := if_pos writable
      simp only [shown]
      exact .inl ⟨x, middle, rfl, rfl, rfl⟩
    · have refused : Rule.displayed x = Rule.failure .unwritable := if_neg writable
      simp only [refused]
      have halted : Quiet frames
          [⟨depth, frames, middle, .halt (.failure .unwritable)⟩] := by
        intro q mem prints
        obtain rfl := List.mem_singleton.mp mem
        exact absurd rfl prints
      exact .inr ⟨halted, _, _, rfl⟩

namespace Invocation

variable {invocation : Invocation} {m : Moment}

/-- An execution of `print` is completed and prints its text, or it ends early and prints nothing
itself. -/
theorem prints_or_fails (settings : Settings) (builtin : invocation.builtin = .print)
    (enters : m.deed = .enter (.builtin invocation)) :
    (∃ inner p text, invocation.Prints settings m inner p text) ∨
      Quiet (.builtin invocation :: m.frames)
          (invocation.rule.moments settings m.depth (.builtin invocation :: m.frames) m.state) ∧
        ∃ reason after, invocation.rule.run (evaluate m.depth) settings m.state =
          (.error reason, after) := by
  have rule : invocation.rule = Builtin.runPrint invocation.runtime invocation.context
      (invocation.arguments.getD 0 .absent) := by
    unfold Invocation.rule
    rw [builtin]
    rfl
  obtain ⟨before, last, moments, quiet, ⟨x, middle, given, rfl, result⟩ | ⟨silent, failed⟩⟩ :=
    Builtin.runPrint_cases settings m.depth (.builtin invocation :: m.frames) m.state
      invocation.runtime invocation.context (invocation.arguments.getD 0 .absent)
  · rw [← rule] at moments result
    exact .inl ⟨before, _, _, builtin, enters, moments, quiet, rfl, rfl, result, x, given, rfl⟩
  · rw [← rule] at moments failed
    exact .inr ⟨moments ▸ List.forall_mem_append.mpr ⟨quiet, silent⟩, failed⟩

/-- A completed execution of `print` prints. -/
theorem prints_of_ok (builtin : invocation.builtin = .print)
    (enters : m.deed = .enter (.builtin invocation)) {x : Object} {after : State}
    (completed : invocation.rule.run (evaluate m.depth) settings m.state = (.ok x, after)) :
    ∃ inner p text, invocation.Prints settings m inner p text := by
  rcases prints_or_fails settings builtin enters with prints | ⟨-, reason, ended, failed⟩
  · exact prints
  · cases completed.symm.trans failed

/-- What an execution of `print` prints itself is its text, and nothing comes after that. -/
theorem prints_of_split (builtin : invocation.builtin = .print)
    (enters : m.deed = .enter (.builtin invocation)) {inner last : List Moment} {p : Moment}
    (split : invocation.rule.moments settings m.depth (.builtin invocation :: m.frames) m.state =
      inner ++ p :: last)
    (framed : p.frames = .builtin invocation :: m.frames) (prints : p.printed? ≠ none) :
    last = [] ∧ ∃ text, invocation.Prints settings m inner p text := by
  rcases prints_or_fails settings builtin enters with
    ⟨before, own, text, printing⟩ | ⟨silent, -⟩
  · have notBefore : p ∉ before := fun mem => printing.quiet p mem prints framed
    have same : before ++ [own] = inner ++ p :: last := printing.moments.symm.trans split
    obtain ⟨rfl, rfl, rfl⟩ : last = [] ∧ inner = before ∧ p = own := by
      rcases List.append_eq_append_iff.mp same with ⟨more, rfl, right⟩ | ⟨more, rfl, right⟩
      · cases more with
        | nil =>
            obtain ⟨rfl, rfl⟩ := List.cons.inj right
            exact ⟨rfl, by simp, rfl⟩
        | cons q more => exact absurd (List.cons.inj right).2 (by simp)
      · cases more with
        | nil =>
            obtain ⟨rfl, rfl⟩ := List.cons.inj right
            exact ⟨rfl, by simp, rfl⟩
        | cons q more =>
            obtain ⟨rfl, -⟩ := List.cons.inj right
            exact absurd (by simp) notBefore
    exact ⟨rfl, text, printing⟩
  · have mem : p ∈ invocation.rule.moments settings m.depth (.builtin invocation :: m.frames)
        m.state := split ▸ List.mem_append_right _ (List.mem_cons_self ..)
    exact absurd framed (silent p mem prints)

end Invocation

/-! ### Runs -/

/-- What is printed is printed by completed executions of `print`, one text by each: whatever prints
is the last moment of one, and each one has such a moment. -/
structure Executions (settings : Settings) (moments : List Moment) : Prop where
  printed : ∀ front p rest, moments = front ++ p :: rest → p.printed? ≠ none →
    ∃ before m inner, ∃ invocation : Invocation, ∃ text, front = before ++ m :: inner ∧
      invocation.Prints settings m inner p text
  completed : ∀ m ∈ moments, ∀ invocation, m.deed = .enter (.builtin invocation) →
    invocation.builtin = .print → ∀ x after,
      invocation.rule.run (evaluate m.depth) settings m.state = (.ok x, after) →
        ∃ before inner p rest text, moments = before ++ m :: (inner ++ p :: rest) ∧
          invocation.Prints settings m inner p text

theorem Executions.nil : Executions settings [] :=
  ⟨fun front p rest split => absurd split (by simp), fun m mem => absurd mem List.not_mem_nil⟩

/-- In every run of a program, what is printed is printed by completed executions of `print`. -/
theorem Runner.run_executions {hosted : Bool} (sound : state.Sound hosted) {runner : Runner}
    (valid : runner.Valid hosted state) (settings : Settings) (depth : Nat) (place : Option Place)
    (program : Node) :
    Executions settings (runner.moments settings depth place program state) := by
  constructor
  · intro front p rest split prints
    obtain ⟨⟨owner, text⟩, printed⟩ := Option.ne_none_iff_exists'.mp prints
    have deed := Moment.printed?_eq_some.mp printed
    have mem : p ∈ runner.moments settings depth place program state :=
      split ▸ List.mem_append_right _ (List.mem_cons_self ..)
    have carries := (runner.run_carries (P := fun _ => True)
      (Node.hereditary_of_forall fun _ => trivial) (state.carries_of_forall fun _ => trivial)
      (fun _ _ _ => trivial) (fun entry _ => entry.2.carries_of_forall fun _ => trivial) depth place
      trivial).1 p mem
    rw [deed] at carries
    obtain ⟨-, invocation, head, builtin, -⟩ := carries
    have kept := discipline_kept hosted state.runtimes.size settings
    have keeps : (runner.programRule place program).Keeps (discipline hosted state.runtimes.size)
        settings [] state _ := keeps_programRule sound valid place program
    rcases keeps.frames kept depth front p rest split _ deed with none | deeper
    · rw [none] at head
      cases head
    · obtain ⟨m, frame, β, body, before, inner, last, after, enters, framed, encloses, moments,
        rfl, -⟩ := deeper
      obtain rfl : frame = .builtin invocation := by
        rw [framed] at head
        exact Option.some.inj head
      cases encloses invocation rfl
      obtain ⟨-, text, printing⟩ := Invocation.prints_of_split builtin enters moments framed prints
      exact ⟨before, m, inner, invocation, text, rfl, printing⟩
  · intro m mem invocation enters builtin x after completed
    obtain ⟨before, rest, split⟩ :=
      (run_sound settings sound valid depth place program).builtins m mem invocation enters
    obtain ⟨inner, p, text, printing⟩ := Invocation.prints_of_ok builtin enters completed
    refine ⟨before, inner, p, rest, text, ?_, printing⟩
    rw [split, printing.moments]
    simp

end TreeScript
