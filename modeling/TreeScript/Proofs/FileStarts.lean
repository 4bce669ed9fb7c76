import TreeScript.Proofs.ModuleLoading
import TreeScript.Proofs.OutputRouting

/-!
# How often a file is started

The statements of a file are started when the file is run, and when it is loaded as a module. A file
is loaded because an import led to it, and what begins to be loaded is started right away. To see
this, an evaluation is put together from the moments of its parts: a property that adds up from one
part to the next holds of the whole, as long as it holds of the loading of a single file.
-/

namespace TreeScript

open Rule

/-! ### Starts -/

/-- The file whose statements are started at an event. -/
def Event.started? : Event → Option Place
  | .began place => some place
  | _ => none

/-- The files whose statements were started, in the order of their starts. -/
def State.starts (state : State) : List Place := state.history.filterMap Event.started?

namespace Moment

/-- The file whose statements are started at a moment. -/
def started? (moment : Moment) : Option Place :=
  match moment.deed with
  | .change (.begin place) => some place
  | _ => none

/-- The file that begins to be loaded at a moment. -/
def entered? (moment : Moment) : Option Place :=
  match moment.deed with
  | .enter (.loading _ place) => some place
  | _ => none

theorem entered?_eq_some {moment : Moment} {place : Place} (h : moment.entered? = some place) :
    ∃ importer, moment.deed = .enter (.loading importer place) := by
  unfold entered? at h
  split at h
  · rename_i importer other deed
    cases h
    exact ⟨importer, deed⟩
  · cases h

end Moment

theorem State.starts_record (state : State) (event : Event) :
    (state.record event).starts = state.starts ++ event.started?.toList := by
  simp only [starts, history, record, List.reverse_cons, List.filterMap_append]
  cases event <;> rfl

theorem State.starts_print (state : State) (runtime : RuntimeId) (text : String) :
    (state.print runtime text).starts = state.starts := by
  unfold State.print
  split <;> exact (State.starts_record ..).trans (List.append_nil _)

theorem Change.starts_apply (state : State) (c : Change) :
    (c.apply state).starts = state.starts ++ (match c with
      | .begin place => [place]
      | _ => []) := by
  cases c with
  | begin place => exact state.starts_record _
  | trace line => exact state.starts_record _
  | finish place => exact state.starts_record _
  | runFactory label => exact state.starts_record _
  | print runtime text => exact (state.starts_print runtime text).trans (List.append_nil _).symm
  | register registry name source =>
      simp only [apply, List.append_nil]
      split <;> rfl
  | _ => exact (List.append_nil _).symm

theorem Moment.starts_next (moment : Moment) :
    moment.nextState.starts = moment.state.starts ++ moment.started?.toList := by
  obtain ⟨depth, frames, state, deed⟩ := moment
  cases deed with
  | change c =>
      refine (c.starts_apply state).trans ?_
      cases c <;> rfl
  | fail runtime cause node =>
      simp only [nextState, State.reportError]
      split
      · exact state.starts_record _
      · exact (List.append_nil _).symm
  | enter frame | leave frame => cases frame <;> exact (List.append_nil _).symm
  | visit _ _ _ | halt _ => exact (List.append_nil _).symm

/-- The files that an evaluation starts come after those that were started before. -/
theorem Linked.starts {frames frames' : List Frame} {state state' : State} {moments : List Moment}
    (linked : Linked frames state moments frames' state') :
    state'.starts = state.starts ++ moments.filterMap Moment.started? :=
  linked.appended State.starts Moment.started? fun m _ => m.starts_next

/-! ### Properties that add up -/

theorem Rule.moments_inspect {settings : Settings} {depth : Nat} {α β : Type} {frames : List Frame}
    {state : State} (view : Settings → State → β) (f : β → Rule α) :
    (inspect view >>= f).moments settings depth frames state =
      (f (view settings state)).moments settings depth frames state := rfl

/-- Nothing is evaluated at the moment, and no file is started or begins to be loaded. -/
def Moment.Idle (moment : Moment) : Prop :=
  match moment.deed with
  | .visit .. | .change (.begin _) | .enter (.loading ..) => False
  | _ => True

theorem Moment.Idle.silent {moment : Moment} (idle : moment.Idle) :
    moment.started? = none ∧ moment.entered? = none := by
  obtain ⟨depth, frames, state, deed⟩ := moment
  cases deed with
  | visit _ _ _ => exact idle.elim
  | change c =>
      cases c with
      | begin place => exact idle.elim
      | _ => exact ⟨rfl, rfl⟩
  | enter frame =>
      cases frame with
      | loading runtime place => exact idle.elim
      | _ => exact ⟨rfl, rfl⟩
  | leave _ | fail _ _ _ | halt _ => exact ⟨rfl, rfl⟩

/-- The property holds of no moments, of some moments and then others, and of an idle moment. -/
structure Additive (P : List Moment → Prop) : Prop where
  nil : P []
  append : ∀ {xs ys}, P xs → P ys → P (xs ++ ys)
  idle : ∀ m : Moment, m.Idle → P [m]

namespace Additive

open Rule

variable {P : List Moment → Prop} {settings : Settings} {depth : Nat} {α β : Type}
variable {frames : List Frame} {state : State}

theorem cons (additive : Additive P) {m : Moment} {xs : List Moment} (idle : m.Idle) (rest : P xs) :
    P (m :: xs) :=
  additive.append (additive.idle m idle) rest

theorem bind (additive : Additive P) {rule : Rule α} {f : α → Rule β}
    (first : P (rule.moments settings depth frames state))
    (second : ∀ a after, P ((f a).moments settings depth frames after)) :
    P ((rule >>= f).moments settings depth frames state) := by
  simp only [moments, momentsWith_bind]
  refine additive.append first ?_
  rcases rule.run (TreeScript.evaluate depth) settings state with ⟨reason | a, after⟩
  · exact additive.nil
  · exact second a after

theorem within (additive : Additive P) {frame : Frame} {body : Rule β} {next : β → Rule α}
    (enters : P [⟨depth, frames, state, .enter frame⟩])
    (inner : P (body.moments settings depth (frame :: frames) (frame.enter state)))
    (rest : ∀ b after, P ((next b).moments settings depth frames after)) :
    P ((within frame body next).moments settings depth frames state) := by
  simp only [moments, momentsWith]
  refine additive.append enters (additive.append inner ?_)
  rcases body.run (TreeScript.evaluate depth) settings (frame.enter state) with ⟨reason | b, after⟩
  · exact additive.cons trivial additive.nil
  · exact additive.cons trivial (rest b _)

/-- At a depth the property holds of the evaluation of every part. -/
def Parts (P : List Moment → Prop) (settings : Settings) (depth : Nat) : Prop :=
  ∀ runtime object context frames state,
    P (⟨depth, frames, state, .visit runtime object context⟩ ::
      partMoments settings depth runtime object context frames state)

theorem part (additive : Additive P) (parts : Parts P settings depth) (runtime : RuntimeId)
    (object : Object) (context : Context) {next : Object → Rule α}
    (rest : ∀ x after, P ((next x).moments settings depth frames after)) :
    P ((part runtime object context next).moments settings depth frames state) := by
  simp only [moments, momentsWith]
  refine additive.append (parts runtime object context frames state) ?_
  rcases TreeScript.evaluate depth runtime object context settings state with ⟨reason | x, after⟩
  · exact additive.nil
  · exact rest x after

theorem evaluateFile (additive : Additive P) (parts : Parts P settings depth) (runtime : RuntimeId)
    (place : Place) (program : Node) (scope : ScopeId)
    (begins : P [⟨depth, frames, state, .change (.begin place)⟩]) :
    P ((evaluateFile runtime place program scope).moments settings depth frames state) :=
  additive.append begins (additive.part parts _ _ _ fun _ _ => additive.cons trivial additive.nil)

/-- Without the loading of the file, the property holds of all that is done for its module. -/
theorem moduleOfFile (additive : Additive P) (importer : RuntimeId) (place : Place)
    (loads : ∀ document module root after, settings.files.program place = .ok document →
      P ((load importer module place (state.mark document).1 root).moments settings depth frames
        after)) :
    P ((moduleOfFile importer place).moments settings depth frames state) := by
  have alone (m : Moment) (idle : m.Idle) : P [m] := additive.idle m idle
  simp only [TreeScript.moduleOfFile, moments_inspect]
  split
  · exact additive.nil
  · simp only [moments_inspect]
    split
    · exact alone _ trivial
    · simp only [moments_inspect]
      split
      · split
        · exact alone _ trivial
        · exact alone _ trivial
      · rename_i document reads
        exact additive.cons trivial (additive.cons trivial (loads document _ _ _ reads))

/-- A routine rule adds up what its parts and the files that it loads do. -/
theorem routine (additive : Additive P) {loads : Prop} {runtime : RuntimeId} {rule : Rule α}
    (routine : Routine loads runtime rule) (parts : Parts P settings depth)
    (files : loads → ∀ importer place frames state,
      P ((TreeScript.moduleOfFile importer place).moments settings depth frames state))
    (frames : List Frame) (state : State) : P (rule.moments settings depth frames state) := by
  induction routine generalizing frames state with
  | done a => exact additive.nil
  | look _ ih => exact ih settings state frames state
  | @change _ _ c _ routine _ ih =>
      have idle : Moment.Idle ⟨depth, frames, state, .change c⟩ := by
        cases c with
        | begin place => exact routine.elim
        | _ => trivial
      exact additive.cons idle (ih frames _)
  | fail _ | halt _ => exact additive.idle _ trivial
  | part _ ih => exact additive.part parts _ _ _ fun x => ih x frames
  | call _ _ _ inner ih =>
      exact additive.within (additive.idle _ trivial) (inner _ _) fun b => ih b frames
  | builtin _ _ inner ih =>
      exact additive.within (additive.idle _ trivial) (inner _ _) fun b => ih b frames
  | file place may _ ih => exact additive.bind (files may _ place frames state) fun b => ih b frames

end Additive

/-! ### Loading starts -/

/-- The files that are started are those that begin to be loaded. -/
def Prompt (moments : List Moment) : Prop :=
  moments.filterMap Moment.started? = moments.filterMap Moment.entered?

theorem additive_prompt : Additive Prompt where
  nil := rfl
  append first second := by
    simp only [Prompt, List.filterMap_append] at *
    rw [first, second]
  idle m idle := by simp [Prompt, idle.silent]

section

variable {settings : Settings} {depth : Nat}

/-- What evaluates the program of a file starts the file and then what it begins to load. -/
theorem started_evaluateFile (parts : Additive.Parts Prompt settings depth) (runtime : RuntimeId)
    (place : Place) (program : Node) (scope : ScopeId) (frames : List Frame) (state : State) :
    let moments := (evaluateFile runtime place program scope).moments settings depth frames state
    moments.filterMap Moment.started? = place :: moments.filterMap Moment.entered? := by
  have rest : Prompt ((Rule.part runtime (.ofNode program) { scope } fun result =>
      .change (.finish place) (.done result)).moments settings depth frames
      (Change.apply state (.begin place))) :=
    additive_prompt.part parts _ _ _ fun _ _ => additive_prompt.idle _ trivial
  exact congrArg (place :: ·) rest

theorem prompt_load (parts : Additive.Parts Prompt settings depth) (importer module : RuntimeId)
    (place : Place) (program : Node) (root : ScopeId) (frames : List Frame) (state : State) :
    Prompt ((load importer module place program root).moments settings depth frames state) := by
  have inner := started_evaluateFile parts module place program root
    (.loading importer place :: frames) (Frame.enter state (.loading importer place))
  have entered {xs : List Moment} (tail : Prompt xs) :
      Prompt (⟨depth, frames, state, .enter (.loading importer place)⟩ ::
        ((evaluateFile module place program root).moments settings depth
          (.loading importer place :: frames) (Frame.enter state (.loading importer place)) ++ xs))
        := by
    simp only [Prompt, List.filterMap_cons, List.filterMap_append, inner] at tail ⊢
    exact congrArg (place :: _ ++ ·) tail
  simp only [load, Rule.moments, Rule.momentsWith]
  refine entered ?_
  rcases (evaluateFile module place program root).run (TreeScript.evaluate depth) settings
    (Frame.enter state (.loading importer place)) with ⟨reason | x, after⟩
  · exact additive_prompt.idle _ trivial
  · exact additive_prompt.cons trivial (additive_prompt.idle _ trivial)

/-- At every depth, whatever is evaluated starts the files that it begins to load. -/
theorem prompt_parts (settings : Settings) (depth : Nat) :
    Additive.Parts Prompt settings depth := by
  induction depth with
  | zero => exact fun _ _ _ _ _ => rfl
  | succ depth ih =>
      intro runtime object context frames state
      have inner : Prompt ((evaluateStep runtime object context).moments settings depth frames
          state) :=
        additive_prompt.routine (routine_evaluateStep object) ih
          (fun _ importer place frames state => additive_prompt.moduleOfFile importer place
            fun _ _ _ _ _ => prompt_load ih ..) frames state
      exact inner

end

end TreeScript
