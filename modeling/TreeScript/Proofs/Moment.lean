import TreeScript.Evaluation

/-!
# The moments of an evaluation

An evaluation is told as one action, from the state it begins in to the state it ends in. Here it is
taken apart into moments: each evaluation of a part, each change, each frame that is entered or
left, and what ended it early if anything did, each with the state at that time and the frames that
are open. `Rule.moments_linked` says that nothing else happens: every moment begins where the one
before it ended, and the last one ends where the evaluation ends. So a property that each single
moment keeps is kept by every evaluation.
-/

namespace TreeScript

/-- What is done at a moment. -/
inductive Deed where
  | visit (runtime : RuntimeId) (object : Object) (context : Context)
  | change (change : Change)
  | enter (frame : Frame)
  | leave (frame : Frame)
  | fail (runtime : RuntimeId) (cause : Cause) (node : Node)
  | halt (reason : Interrupt)

/-- One moment of an evaluation: what is done, in which state, and within which frames, the
innermost first. The depth is how deep the evaluation may still nest. -/
structure Moment where
  depth : Nat
  frames : List Frame
  state : State
  deed : Deed

namespace Moment

def nextFrames (moment : Moment) : List Frame :=
  match moment.deed with
  | .enter frame => frame :: moment.frames
  | .leave _ => moment.frames.tail
  | _ => moment.frames

def nextState (moment : Moment) : State :=
  match moment.deed with
  | .visit .. | .halt _ => moment.state
  | .change change => change.apply moment.state
  | .enter frame => frame.enter moment.state
  | .leave frame => frame.leave moment.state
  | .fail runtime cause _ => moment.state.reportError runtime cause

/-- Why the evaluation ends early at a moment, if it does. At depth zero no part is evaluated. -/
def reason? (moment : Moment) : Option Interrupt :=
  match moment.deed, moment.depth with
  | .fail runtime cause node, _ => some (.error ((moment.state.runtime runtime).error cause node))
  | .halt reason, _ => some reason
  | .visit .., 0 => some .tooDeep
  | _, _ => none

end Moment

/-- The moments of a part, which is evaluated by a runtime in a context, within frames, and from a
state on. -/
abbrev PartMoments := RuntimeId → Object → Context → List Frame → State → List Moment

namespace Rule

variable (settings : Settings) (depth : Nat) (parts : PartMoments)

/-- The moments of a rule in order, given those of its parts. -/
def momentsWith : {α : Type} → Rule α → List Frame → State → List Moment
  | _, done _, _, _ => []
  | _, look view next, frames, state => (next (view settings state)).momentsWith frames state
  | _, change c next, frames, state =>
      ⟨depth, frames, state, .change c⟩ :: next.momentsWith frames (c.apply state)
  | _, fail runtime cause node, frames, state => [⟨depth, frames, state, .fail runtime cause node⟩]
  | _, halt reason, frames, state => [⟨depth, frames, state, .halt reason⟩]
  | _, part runtime object context next, frames, state =>
      ⟨depth, frames, state, .visit runtime object context⟩ ::
        (parts runtime object context frames state ++
          match TreeScript.evaluate depth runtime object context settings state with
          | (.ok x, state) => (next x).momentsWith frames state
          | (.error _, _) => [])
  | _, within frame body next, frames, state =>
      ⟨depth, frames, state, .enter frame⟩ ::
        (body.momentsWith (frame :: frames) (frame.enter state) ++
          match body.run (TreeScript.evaluate depth) settings (frame.enter state) with
          | (.ok b, state) =>
              ⟨depth, frame :: frames, state, .leave frame⟩ ::
                (next b).momentsWith frames (frame.leave state)
          | (.error _, state) => [⟨depth, frame :: frames, state, .leave frame⟩])

end Rule

def partMoments (settings : Settings) : Nat → PartMoments
  | 0 => fun _ _ _ _ _ => []
  | depth + 1 => fun runtime object context frames state =>
      (evaluateStep runtime object context).momentsWith settings depth
        (partMoments settings depth) frames state

def Moment.inner (settings : Settings) (moment : Moment) : List Moment :=
  match moment.deed with
  | .visit runtime object context =>
      partMoments settings moment.depth runtime object context moment.frames moment.state
  | _ => []

namespace Rule

variable {α β : Type} (settings : Settings) (depth : Nat)

def moments (rule : Rule α) (frames : List Frame) (state : State) : List Moment :=
  rule.momentsWith settings depth (partMoments settings depth) frames state

/-- The moments of a rule itself, without those within its parts. -/
def ownMoments (rule : Rule α) (frames : List Frame) (state : State) : List Moment :=
  rule.momentsWith settings depth (fun _ _ _ _ _ => []) frames state

end Rule

/-- The moments of an evaluation one level down are those of its rule. -/
theorem partMoments_succ (settings : Settings) (depth : Nat) (runtime : RuntimeId)
    (object : Object) (context : Context) (frames : List Frame) (state : State) :
    partMoments settings (depth + 1) runtime object context frames state =
      (evaluateStep runtime object context).moments settings depth frames state := rfl

namespace Rule

variable {α β : Type} {settings : Settings} {depth : Nat} {parts : PartMoments}

/-- The moments of one rule and then another: those of the first, and if it ends with a result, then
those of the second. -/
theorem momentsWith_bind (rule : Rule α) (f : α → Rule β) (frames : List Frame) (state : State) :
    (rule >>= f).momentsWith settings depth parts frames state =
      rule.momentsWith settings depth parts frames state ++
        match rule.run (TreeScript.evaluate depth) settings state with
        | (.ok a, state) => (f a).momentsWith settings depth parts frames state
        | (.error _, _) => [] := by
  rw [bind_eq]
  induction rule generalizing frames state with
  | done a => rfl
  | fail runtime cause node => rfl
  | halt reason => rfl
  | look view next ih => exact ih _ f frames state
  | change c next ih => exact congrArg _ (ih f frames _)
  | part runtime object context next ih =>
      simp only [Rule.bind, momentsWith, run, List.cons_append, List.append_assoc]
      rcases TreeScript.evaluate depth runtime object context settings state with ⟨_ | x, after⟩
      · rfl
      · exact congrArg _ (congrArg _ (ih x f frames after))
  | within frame body next _ ih =>
      simp only [Rule.bind, momentsWith, run, List.cons_append, List.append_assoc]
      rcases body.run (TreeScript.evaluate depth) settings (frame.enter state)
        with ⟨_ | b, after⟩
      · rfl
      · exact congrArg _ (congrArg _ (congrArg _ (ih b f frames _)))

/-- The moments of one rule that gives a result and then another. -/
theorem moments_bind {rule : Rule α} {f : α → Rule β} {frames : List Frame} {state middle : State}
    {a : α} (h : rule.run (TreeScript.evaluate depth) settings state = (.ok a, middle)) :
    (rule >>= f).moments settings depth frames state =
      rule.moments settings depth frames state ++ (f a).moments settings depth frames middle := by
  rw [moments, momentsWith_bind, h]
  rfl

end Rule

/-! ### Nothing happens between the moments -/

/-- From some frames and a state to others, each moment begins where the one before it ended. -/
inductive Linked : List Frame → State → List Moment → List Frame → State → Prop
  | nil (frames : List Frame) (state : State) : Linked frames state [] frames state
  | cons (moment : Moment) {rest : List Moment} {frames : List Frame} {state : State} :
      Linked moment.nextFrames moment.nextState rest frames state →
      Linked moment.frames moment.state (moment :: rest) frames state

namespace Linked

variable {frames frames' frames'' : List Frame} {state state' state'' : State}
variable {xs ys : List Moment}

theorem append (first : Linked frames state xs frames' state')
    (second : Linked frames' state' ys frames'' state'') :
    Linked frames state (xs ++ ys) frames'' state'' := by
  induction first with
  | nil => exact second
  | cons moment _ ih => exact .cons moment (ih second)

/-- What each moment keeps holds at every moment and at the end. -/
theorem invariant {P : List Frame → State → Prop} (linked : Linked frames state xs frames' state')
    (step : ∀ m ∈ xs, P m.frames m.state → P m.nextFrames m.nextState)
    (start : P frames state) :
    P frames' state' ∧ ∀ m ∈ xs, P m.frames m.state := by
  induction linked with
  | nil => exact ⟨start, by simp⟩
  | cons moment _ ih =>
      have next := step _ (List.mem_cons_self ..) start
      obtain ⟨final, middle⟩ := ih (fun m hm => step m (List.mem_cons_of_mem _ hm)) next
      exact ⟨final, List.forall_mem_cons.mpr ⟨start, middle⟩⟩

/-- A preorder that holds from before each moment to after it holds from the beginning to each
moment, from each moment to the end, and from the beginning to the end. -/
theorem related {R : State → State → Prop} (refl : ∀ s, R s s)
    (trans : ∀ {a b c}, R a b → R b c → R a c)
    (linked : Linked frames state xs frames' state')
    (step : ∀ m ∈ xs, R m.state m.nextState) :
    R state state' ∧ ∀ m ∈ xs, R state m.state ∧ R m.nextState state' := by
  induction linked with
  | nil => exact ⟨refl _, by simp⟩
  | cons moment _ ih =>
      have first := step _ (List.mem_cons_self ..)
      obtain ⟨final, middle⟩ := ih fun m hm => step m (List.mem_cons_of_mem _ hm)
      refine ⟨trans first final, List.forall_mem_cons.mpr ⟨⟨refl _, final⟩, ?_⟩⟩
      exact fun m hm => ⟨trans first (middle m hm).1, (middle m hm).2⟩

/-- What each moment adds to a list, in order, is what the list gains in the end. -/
theorem appended {β : Type} (view : State → List β) (added : Moment → Option β)
    (linked : Linked frames state xs frames' state')
    (step : ∀ m ∈ xs, view m.nextState = view m.state ++ (added m).toList) :
    view state' = view state ++ xs.filterMap added := by
  induction linked with
  | nil => simp
  | cons moment _ ih =>
      have first := step _ (List.mem_cons_self ..)
      have later := ih fun m hm => step m (List.mem_cons_of_mem _ hm)
      rw [later, first, List.append_assoc]
      cases found : added moment <;> simp [found]

end Linked

/-- The moments of a part lead from the state it is evaluated in to the state it ends in. -/
def PartMoments.Linked (settings : Settings) (depth : Nat) (parts : PartMoments) : Prop :=
  ∀ runtime object context frames state,
    TreeScript.Linked frames state (parts runtime object context frames state) frames
      (evaluate depth runtime object context settings state).2

namespace Rule

variable {α : Type} {settings : Settings} {depth : Nat} {parts : PartMoments}

theorem momentsWith_linked (linked : parts.Linked settings depth) (rule : Rule α)
    (frames : List Frame) (state : State) :
    Linked frames state (rule.momentsWith settings depth parts frames state) frames
      (rule.run (TreeScript.evaluate depth) settings state).2 := by
  induction rule generalizing frames state with
  | done a => exact .nil ..
  | fail runtime cause node =>
      exact .cons ⟨depth, frames, state, .fail runtime cause node⟩ (.nil ..)
  | halt reason => exact .cons ⟨depth, frames, state, .halt reason⟩ (.nil ..)
  | look view next ih => exact ih _ frames state
  | change c next ih => exact .cons ⟨depth, frames, state, .change c⟩ (ih frames _)
  | part runtime object context next ih =>
      have inner := linked runtime object context frames state
      simp only [momentsWith, run]
      generalize TreeScript.evaluate depth runtime object context settings state = outcome
        at inner ⊢
      refine .cons ⟨depth, frames, state, .visit runtime object context⟩ (Linked.append inner ?_)
      rcases outcome with ⟨_ | x, after⟩
      · exact .nil ..
      · exact ih x frames after
  | within frame body next body_ih ih =>
      have inner := body_ih (frame :: frames) (frame.enter state)
      simp only [momentsWith, run]
      generalize body.run (TreeScript.evaluate depth) settings (frame.enter state) = outcome
        at inner ⊢
      refine .cons ⟨depth, frames, state, .enter frame⟩ (Linked.append inner ?_)
      rcases outcome with ⟨_ | b, after⟩
      · exact .cons ⟨depth, frame :: frames, after, .leave frame⟩ (.nil ..)
      · exact .cons ⟨depth, frame :: frames, after, .leave frame⟩ (ih b frames _)

end Rule

theorem partMoments_linked (settings : Settings) (depth : Nat) :
    (partMoments settings depth).Linked settings depth := by
  induction depth with
  | zero => exact fun _ _ _ _ _ => .nil ..
  | succ depth ih => exact fun _ _ _ => Rule.momentsWith_linked ih _

/-- The moments of a rule lead from the state it begins in to the state it ends in, whether it ends
early or not. -/
theorem Rule.moments_linked {α : Type} (settings : Settings) (depth : Nat) (rule : Rule α)
    (frames : List Frame) (state : State) :
    Linked frames state (rule.moments settings depth frames state) frames
      (rule.run (TreeScript.evaluate depth) settings state).2 :=
  momentsWith_linked (partMoments_linked settings depth) rule frames state

/-! ### How an evaluation ends -/

def interruptOf? {α : Type} : Except Interrupt α → Option Interrupt
  | .ok _ => none
  | .error reason => some reason

/-- What ended an evaluation early is the reason of one moment, after which frames are left and
nothing else is done. Without it no moment has a reason to end. -/
def EndsFor : Option Interrupt → List Moment → Prop
  | none, moments => ∀ m ∈ moments, m.reason? = none
  | some reason, moments => ∃ before last after, moments = before ++ last :: after ∧
      last.reason? = some reason ∧ (∀ m ∈ before, m.reason? = none) ∧
      ∀ m ∈ after, ∃ frame, m.deed = .leave frame

namespace EndsFor

variable {reason : Option Interrupt} {xs ys : List Moment}

theorem append (first : EndsFor none xs) (second : EndsFor reason ys) :
    EndsFor reason (xs ++ ys) := by
  cases reason with
  | none => exact List.forall_mem_append.mpr ⟨first, second⟩
  | some reason =>
      obtain ⟨before, last, after, rfl, ends, quiet, leaving⟩ := second
      exact ⟨xs ++ before, last, after, by simp, ends,
        List.forall_mem_append.mpr ⟨first, quiet⟩, leaving⟩

theorem cons {moment : Moment} (quiet : moment.reason? = none) (rest : EndsFor reason ys) :
    EndsFor reason (moment :: ys) := by
  have first : EndsFor none [moment] := by simpa [EndsFor] using quiet
  exact first.append rest

theorem leave {reason : Interrupt} (ends : EndsFor (some reason) xs) {moment : Moment}
    {frame : Frame} (leaving : moment.deed = .leave frame) :
    EndsFor (some reason) (xs ++ [moment]) := by
  obtain ⟨before, last, after, rfl, ends, quiet, left⟩ := ends
  refine ⟨before, last, after ++ [moment], by simp, ends, quiet, ?_⟩
  exact List.forall_mem_append.mpr ⟨left, by simpa using ⟨frame, leaving⟩⟩

/-- The reason of any moment is what ended the evaluation. -/
theorem eq_of_mem (ends : EndsFor reason xs) {moment : Moment} (mem : moment ∈ xs)
    {found : Interrupt} (h : moment.reason? = some found) : reason = some found := by
  cases reason with
  | none => exact absurd (ends moment mem) (by simp [h])
  | some reason =>
      obtain ⟨before, last, after, rfl, hlast, quiet, leaving⟩ := ends
      rcases List.mem_append.mp mem with early | late
      · exact absurd (quiet moment early) (by simp [h])
      · rcases List.mem_cons.mp late with rfl | left
        · exact hlast.symm.trans h
        · obtain ⟨frame, hframe⟩ := leaving moment left
          simp [Moment.reason?, hframe] at h

end EndsFor

namespace Rule

variable {α : Type} {settings : Settings} {depth : Nat} {parts : PartMoments}

theorem momentsWith_endsFor
    (ends : ∀ runtime object context frames state,
      EndsFor (interruptOf? (TreeScript.evaluate depth runtime object context settings state).1)
        (⟨depth, frames, state, .visit runtime object context⟩ ::
          parts runtime object context frames state))
    (rule : Rule α) (frames : List Frame) (state : State) :
    EndsFor (interruptOf? (rule.run (TreeScript.evaluate depth) settings state).1)
      (rule.momentsWith settings depth parts frames state) := by
  induction rule generalizing frames state with
  | done a => simp [momentsWith, run, interruptOf?, EndsFor]
  | fail runtime cause node => exact ⟨[], _, [], rfl, rfl, by simp, by simp⟩
  | halt reason => exact ⟨[], _, [], rfl, rfl, by simp, by simp⟩
  | look view next ih => exact ih _ frames state
  | change c next ih => exact .cons rfl (ih frames _)
  | part runtime object context next ih =>
      have inner := ends runtime object context frames state
      simp only [run, momentsWith]
      generalize TreeScript.evaluate depth runtime object context settings state = outcome
        at inner ⊢
      rcases outcome with ⟨reason | x, after⟩
      · rw [List.append_nil]
        exact inner
      · exact EndsFor.append inner (ih x frames after)
  | within frame body next body_ih ih =>
      have inner := body_ih (frame :: frames) (frame.enter state)
      simp only [run, momentsWith]
      generalize body.run (TreeScript.evaluate depth) settings (frame.enter state) = outcome
        at inner ⊢
      rcases outcome with ⟨reason | b, after⟩
      · exact .cons rfl (inner.leave rfl)
      · exact .cons rfl (inner.append (.cons rfl (ih b frames _)))

end Rule

theorem partMoments_endsFor (settings : Settings) (depth : Nat) (runtime : RuntimeId)
    (object : Object) (context : Context) (frames : List Frame) (state : State) :
    EndsFor (interruptOf? (evaluate depth runtime object context settings state).1)
      (⟨depth, frames, state, .visit runtime object context⟩ ::
        partMoments settings depth runtime object context frames state) := by
  induction depth generalizing runtime object context frames state with
  | zero => exact ⟨[], _, [], rfl, rfl, by simp, by simp⟩
  | succ depth ih => exact .cons rfl (Rule.momentsWith_endsFor ih _ frames state)

/-- A rule that gives a result has no moment with a reason to end; one that ends early does so for
the reason of one of its moments. -/
theorem Rule.moments_endsFor {α : Type} (settings : Settings) (depth : Nat) (rule : Rule α)
    (frames : List Frame) (state : State) :
    EndsFor (interruptOf? (rule.run (TreeScript.evaluate depth) settings state).1)
      (rule.moments settings depth frames state) :=
  momentsWith_endsFor (partMoments_endsFor settings depth) rule frames state

end TreeScript
