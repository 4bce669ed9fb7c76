import TreeScript.Proofs.Framing
import TreeScript.Proofs.Persistence
import TreeScript.Proofs.Routine

/-!
# Whether a name exists

The builtin `exists` looks for a name along the parents of a scope, which is what a call does first.
A call whose name is bound nowhere there then looks for a member of a namespace, and `exists` does
not. So the two agree unless the name leads somewhere through a namespace alone.
-/

namespace TreeScript

/-! ### Names with a point -/

/-- A name with a point is that of a member, which stands after the last point. -/
theorem exists_path_member {name : String} (dotted : '.' ∈ name.toList) :
    ∃ path member : String, name = path ++ "." ++ member ∧ '.' ∉ member.toList := by
  obtain ⟨back, front, split, plain⟩ :=
    List.eq_append_cons_of_mem (List.mem_reverse.mpr dotted)
  refine ⟨String.ofList front.reverse, String.ofList back.reverse, ?_, by simpa using plain⟩
  have chars : name.toList = front.reverse ++ '.' :: back.reverse := by
    rw [← List.reverse_reverse name.toList, split]
    simp
  rw [← String.toList_inj]
  simp [chars]

namespace Heap

variable {heap : Heap} {scope : ScopeId} {name : String}

/-- What stands after the last point of the name is bound in the namespace of what stands before
it. -/
def HasMember (heap : Heap) (scope : ScopeId) (name : String) : Prop :=
  ∃ path member space, name = path ++ "." ++ member ∧ '.' ∉ member.toList ∧
    heap.resolveNamespace? scope path = some space ∧ (heap.get space).functions.has member = true

/-- A name leads somewhere if a scope along the parents binds it, or else through a namespace. -/
theorem exists_resolve_iff_bound_or_member :
    (∃ entry, heap.resolve scope name = .ok entry) ↔
      (heap.owner? scope name).isSome = true ∨ heap.HasMember scope name := by
  rw [← function?_isSome]
  cases found : heap.function? scope name with
  | some entry => simp [resolve, found]
  | none =>
      simp only [Option.isSome_none, Bool.false_eq_true, false_or]
      constructor
      · rintro ⟨entry, leads⟩
        have dotted : '.' ∈ name.toList := Classical.byContradiction fun plain => by
          have bound := (exists_resolve_iff plain).mp ⟨entry, leads⟩
          simp [← function?_isSome, found] at bound
        obtain ⟨path, member, rfl, plain⟩ := exists_path_member dotted
        rw [resolve_dotted plain found] at leads
        split at leads
        · cases leads
        · rename_i space known
          split at leads
          · rename_i bound
            exact ⟨path, member, space, rfl, plain, known, by simp [Table.has, bound]⟩
          · cases leads
      · rintro ⟨path, member, space, rfl, plain, known, bound⟩
        obtain ⟨entry, bound⟩ := Option.isSome_iff_exists.mp bound
        exact ⟨entry, by rw [resolve_dotted plain found, known]; simp [bound]⟩

end Heap

/-! ### Calls that miss their name -/

/-- Directly within the frames, a call finds that its name, or the namespace before the last point
of it, is unknown. -/
def Moment.Misses (name : String) (frames : List Frame) (moment : Moment) : Prop :=
  moment.frames = frames ∧ ∃ runtime cause node, moment.deed = .fail runtime cause node ∧
    ((∃ path, cause = .unknownNamespace path) ∨ cause = .unknownFunction name)

namespace Rule

variable {settings : Settings} {depth : Nat} {frames : List Frame} {state : State}
variable {runtime : RuntimeId} {context : Context} {name : String} {α β : Type}

/-- None of the rule's own moments is one at which the name is missed. -/
def NeverMisses (settings : Settings) (depth : Nat) (name : String) (frames : List Frame)
    (rule : Rule α) : Prop :=
  ∀ state, ∀ m ∈ rule.ownMoments settings depth frames state, ¬ m.Misses name frames

theorem NeverMisses.bind {rule : Rule α} {f : α → Rule β}
    (first : rule.NeverMisses settings depth name frames)
    (second : ∀ a, (f a).NeverMisses settings depth name frames) :
    (rule >>= f).NeverMisses settings depth name frames := by
  intro state m mem
  rw [ownMoments, momentsWith_bind] at mem
  rcases List.mem_append.mp mem with early | late
  · exact first state m early
  · split at late
    · exact second _ _ m late
    · cases late

theorem neverMisses_done (a : α) : (done a).NeverMisses settings depth name frames := by
  simp [NeverMisses, ownMoments, momentsWith]

theorem neverMisses_halt (reason : Interrupt) :
    (halt reason : Rule α).NeverMisses settings depth name frames := by
  simp [NeverMisses, ownMoments, momentsWith, Moment.Misses]

theorem neverMisses_evaluate (object : Object) :
    (evaluate runtime object context).NeverMisses settings depth name frames := by
  intro state m mem
  simp only [ownMoments, evaluate, momentsWith, List.nil_append] at mem
  split at mem <;> simp_all [Moment.Misses]

theorem neverMisses_all (nodes : List Node) :
    (all runtime context nodes).NeverMisses settings depth name frames := by
  induction nodes with
  | nil => exact neverMisses_done []
  | cons node rest ih =>
      exact (neverMisses_evaluate _).bind fun result => ih.bind fun results => neverMisses_done _

theorem neverMisses_trace (line : String) :
    (trace line).NeverMisses settings depth name frames := by
  intro state m mem
  simp only [trace, bind_eq, Rule.bind, inspect, ownMoments, momentsWith] at mem
  split at mem <;> simp_all [perform, momentsWith, Moment.Misses, pure_eq]

/-- What is done within a further frame is not done directly within those around it. -/
theorem neverMisses_inside (frame : Frame) (body : Rule α) :
    (inside frame body).NeverMisses settings depth name frames := by
  intro state m mem
  have deeper : frame :: frames ≠ frames := by simp
  have carried : body.momentsWith settings depth (fun _ _ _ _ _ => []) (frame :: frames)
      (frame.enter state) = (body.momentsWith settings depth (fun _ _ _ _ _ => []) []
        (frame.enter state)).map (Moment.under (frame :: frames)) :=
    momentsWith_under (fun _ _ _ _ _ => rfl) body [] (frame.enter state)
  simp only [ownMoments, inside, momentsWith, carried, List.mem_cons, List.mem_append,
    List.mem_map] at mem
  rcases mem with rfl | ⟨inner, -, rfl⟩ | leaves
  · simp [Moment.Misses]
  · have longer : (inner.under (frame :: frames)).frames.length ≠ frames.length := by
      simp [Moment.under]
      omega
    exact fun misses => longer (congrArg List.length misses.1)
  · split at leaves <;> simp_all [Moment.Misses]

theorem neverMisses_callEntry (parameters : List Node) (yielded : Node) (entry : Entry) :
    (callEntry runtime context name parameters yielded entry).NeverMisses settings depth name
      frames := by
  cases entry with
  | builtin owner builtin =>
      exact (neverMisses_all parameters).bind fun arguments => (neverMisses_trace _).bind fun _ =>
        neverMisses_inside _ _
  | host label procedure =>
      refine (neverMisses_all parameters).bind fun arguments =>
        (neverMisses_trace _).bind fun _ => ?_
      cases procedure with
      | crash _ | refuse _ _ => exact neverMisses_halt _
      | _ => exact neverMisses_done _
  | custom closure body =>
      have arguments : (customArguments runtime context parameters).NeverMisses settings depth name
          frames := by
        unfold customArguments
        split
        · exact neverMisses_done _
        · exact neverMisses_all parameters
      exact arguments.bind fun arguments =>
        (neverMisses_trace _).bind fun _ => neverMisses_evaluate _
  | inert datum =>
      intro state m mem
      simp_all [callEntry, ownMoments, momentsWith, Moment.Misses]

/-- A call misses its name exactly when that leads nowhere. -/
theorem misses_iff (parameters : List Node) (yielded : Node) :
    (∃ m ∈ (resolveAndCall runtime context name parameters yielded).ownMoments settings depth frames
      state, m.Misses name frames) ↔
      ¬ ∃ entry, state.heap.resolve context.scope name = .ok entry := by
  cases leads : state.heap.resolve context.scope name with
  | error cause =>
      have own : (resolveAndCall runtime context name parameters yielded).ownMoments settings depth
          frames state = [⟨depth, frames, state, .fail runtime cause .absent⟩] := by
        simp only [resolveAndCall, bind_eq, Rule.bind, inspect, ownMoments, momentsWith, leads]
      have missed : Moment.Misses name frames
          ⟨depth, frames, state, .fail runtime cause .absent⟩ :=
        ⟨rfl, runtime, cause, .absent, rfl, Heap.cause_of_resolve leads⟩
      simpa [own] using missed
  | ok entry =>
      have own : (resolveAndCall runtime context name parameters yielded).ownMoments settings depth
          frames state = (callEntry runtime context name parameters yielded entry).ownMoments
            settings depth frames state := by
        simp only [resolveAndCall, bind_eq, Rule.bind, inspect, ownMoments, momentsWith, leads]
      have found : (callEntry runtime context name parameters yielded entry).NeverMisses settings
          depth name frames := neverMisses_callEntry parameters yielded entry
      simpa [own] using found state

end Rule

/-! ### What `exists` says -/

/-- The name in question, if `exists` is asked about a memory or a text. -/
def Object.askedName? : Object → Option String
  | .value (.memory name _) | .value (.text name) => some name
  | _ => none

/-- Asked about a memory or a text, `exists` answers and changes nothing. If the answer is true,
then a call of that name from the same scope does not miss it. The answer is true exactly when such
a call does not miss its name, unless the name is bound nowhere along the parents and is that of a
member of a namespace. -/
theorem Invocation.exists_agrees_iff (invocation : Invocation)
    (kind : invocation.builtin = .exists) {name : String}
    (asked : (invocation.arguments.getD 0 .absent).askedName? = some name)
    (evaluator : Evaluator) (settings : Settings) (state : State) :
    let scope := invocation.context.scope
    ∃ answer : Bool,
      invocation.rule.run evaluator settings state = (.ok (.value (.boolean answer)), state) ∧
      (answer = true → ∃ entry, state.heap.resolve scope name = .ok entry) ∧
      ((answer = true ↔ ∃ entry, state.heap.resolve scope name = .ok entry) ↔
        (state.heap.owner? scope name).isSome = true ∨ ¬ state.heap.HasMember scope name) ∧
      ∀ depth frames runtime parameters yielded,
        (∃ m ∈ (resolveAndCall runtime invocation.context name parameters yielded).ownMoments
            settings depth frames state, m.Misses name frames) ↔
          ¬ ∃ entry, state.heap.resolve scope name = .ok entry := by
  intro scope
  refine ⟨(state.heap.owner? scope name).isSome, ?_, ?_, ?_, ?_⟩
  · simp only [Invocation.rule, Builtin.run, kind]
    generalize invocation.arguments.getD 0 .absent = object at asked
    unfold Object.askedName? at asked
    split at asked
    · cases asked
      rfl
    · cases asked
      rfl
    · cases asked
  · exact fun bound => Heap.exists_resolve_iff_bound_or_member.mpr (.inl bound)
  · rw [Heap.exists_resolve_iff_bound_or_member]
    by_cases bound : (state.heap.owner? scope name).isSome = true <;> simp [bound]
  · exact fun depth frames runtime parameters yielded => Rule.misses_iff parameters yielded

/-- The state in which a block that binds `x` was made the namespace `o`. -/
def State.withMember : State :=
  (Runner.main.evaluateProgram 12 none
    (.call "obj" [.memory "o" {}]
      (.block [.call "defI" [.memory "x" {}] (.number (.int 1) {}) {}] {}) {})
    (.quiet .empty) State.fresh).2

/-- There is no member `y`, and `exists` agrees with that. -/
theorem Invocation.exists_agrees_iff_absentMember :
    let invocation : Invocation :=
      ⟨.exists, 0, { scope := 0 }, [.value (.text "o.y")], .absent⟩
    ∃ answer : Bool,
      invocation.rule.run (evaluate 3) (.quiet .empty) State.withMember =
        (.ok (.value (.boolean answer)), State.withMember) ∧
      ((answer = true ↔ ∃ entry, State.withMember.heap.resolve 0 "o.y" = .ok entry) ↔
        (State.withMember.heap.owner? 0 "o.y").isSome = true ∨
          ¬ State.withMember.heap.HasMember 0 "o.y") := by
  intro invocation
  obtain ⟨answer, answers, -, agrees, -⟩ := Invocation.exists_agrees_iff invocation rfl rfl
    (evaluate 3) (.quiet .empty) State.withMember
  exact ⟨answer, answers, agrees⟩

/-- There is a member `x`, and its name leads somewhere, but `exists` says that it does not. -/
theorem Runner.exists_misses_member :
    let invocation : Invocation :=
      ⟨.exists, 0, { scope := 0 }, [.value (.text "o.x")], .absent⟩
    Session false State.withMember ∧
      invocation.rule.run (evaluate 3) (.quiet .empty) State.withMember =
        (.ok (.value (.boolean false)), State.withMember) ∧
      ∃ entry, State.withMember.heap.resolve 0 "o.x" = .ok entry := by
  intro invocation
  have session : Session false State.withMember :=
    (Session.fresh false).evaluate _ _ _ _ _ (Runner.main_valid false)
  have free : (State.withMember.heap.owner? 0 "o.x").isSome = false := by decide +kernel
  have leads : (State.withMember.heap.resolve 0 "o.x").isOk = true := by decide +kernel
  refine ⟨session, ?_, ?_⟩
  · rw [← free]
    rfl
  · cases found : State.withMember.heap.resolve 0 "o.x" with
    | ok entry => exact ⟨entry, rfl⟩
    | error cause => simp [found, Except.isOk, Except.toBool] at leads

end TreeScript
