import TreeScript.Proofs.Contract

/-!
# Moments within frames

What a part does does not depend on the frames that are open around it: those are only carried
along. And whatever is done directly within a frame belongs to what that frame encloses, so it lies
between the moment at which the frame is entered and the one at which it is left.
-/

namespace TreeScript

/-- The same moment within further frames around it. -/
def Moment.under (outer : List Frame) (moment : Moment) : Moment :=
  { moment with frames := moment.frames ++ outer }

variable {settings : Settings} {depth : Nat}

/-- The frames around a rule are carried along if those around its parts are. -/
theorem Rule.momentsWith_under {α : Type} {parts : PartMoments} {outer : List Frame}
    (carried : ∀ runtime object context frames state,
      parts runtime object context (frames ++ outer) state =
        (parts runtime object context frames state).map (Moment.under outer))
    (rule : Rule α) (frames : List Frame) (state : State) :
    rule.momentsWith settings depth parts (frames ++ outer) state =
      (rule.momentsWith settings depth parts frames state).map (Moment.under outer) := by
  induction rule generalizing frames state with
  | done a => rfl
  | fail runtime cause node => rfl
  | halt reason => rfl
  | look view next ih => exact ih _ frames state
  | change c next ih => exact congrArg _ (ih frames _)
  | part runtime object context next ih =>
      simp only [momentsWith, List.map_cons, List.map_append, carried]
      rcases TreeScript.evaluate depth runtime object context settings state with ⟨_ | x, after⟩
      · rfl
      · exact congrArg _ (congrArg _ (ih x frames after))
  | within frame body next body_ih ih =>
      have inner := body_ih (frame :: frames) (frame.enter state)
      rw [List.cons_append] at inner
      simp only [momentsWith, List.map_cons, List.map_append, inner]
      rcases body.run (TreeScript.evaluate depth) settings (frame.enter state)
        with ⟨_ | b, after⟩
      · rfl
      · exact congrArg _ (congrArg _ (congrArg _ (ih b frames _)))

/-- The frames around a part are carried along. -/
theorem partMoments_under (settings : Settings) (depth : Nat) (outer : List Frame)
    (runtime : RuntimeId) (object : Object) (context : Context) (frames : List Frame)
    (state : State) :
    partMoments settings depth runtime object context (frames ++ outer) state =
      (partMoments settings depth runtime object context frames state).map
        (Moment.under outer) := by
  induction depth generalizing runtime object context frames state with
  | zero => rfl
  | succ depth ih => exact Rule.momentsWith_under ih _ frames state

/-- A moment belongs to what a frame encloses that was entered before, and it is done directly
within that frame. -/
def Contract.Inside (contract : Contract) (settings : Settings) (front : List Moment) (p : Moment)
    (rest : List Moment) : Prop :=
  ∃ (m : Moment) (frame : Frame) (β : Type) (body : Rule β)
      (before inner last after : List Moment),
    m.deed = .enter frame ∧ p.frames = frame :: m.frames ∧ contract.encloses frame body ∧
    body.moments settings m.depth (frame :: m.frames) (frame.enter m.state) = inner ++ p :: last ∧
    front = before ++ m :: inner ∧ rest = last ++ after

namespace Contract.Inside

variable {contract : Contract} {front rest : List Moment} {p : Moment}

theorem after (inside : contract.Inside settings front p rest) (xs : List Moment) :
    contract.Inside settings (xs ++ front) p rest := by
  obtain ⟨m, frame, β, body, before, inner, last, after, enters, framed, encloses, moments, rfl,
    rfl⟩ := inside
  exact ⟨m, frame, β, body, xs ++ before, inner, last, after, enters, framed, encloses, moments,
    by simp, rfl⟩

theorem before (inside : contract.Inside settings front p rest) (ys : List Moment) :
    contract.Inside settings front p (rest ++ ys) := by
  obtain ⟨m, frame, β, body, before, inner, last, after, enters, framed, encloses, moments, rfl,
    rfl⟩ := inside
  exact ⟨m, frame, β, body, before, inner, last, after ++ ys, enters, framed, encloses, moments,
    rfl, by simp⟩

end Contract.Inside

/-- A change is made directly within the given frames, or else directly within a frame that was
entered before. -/
def Contract.Frames (contract : Contract) (settings : Settings) (frames : List Frame)
    (moments : List Moment) : Prop :=
  ∀ front p rest, moments = front ++ p :: rest → ∀ c, p.deed = .change c →
    p.frames = frames ∨ contract.Inside settings front p rest

namespace Contract.Frames

variable {contract : Contract} {frames : List Frame} {xs ys : List Moment}

theorem nil : contract.Frames settings frames [] := by
  intro front p rest split
  exact absurd split (by simp)

theorem append (first : contract.Frames settings frames xs)
    (second : contract.Frames settings frames ys) : contract.Frames settings frames (xs ++ ys) := by
  intro front p rest split c change
  rcases List.append_eq_append_iff.mp split with ⟨more, rfl, right⟩ | ⟨more, left, right⟩
  · exact (second more p rest right c change).imp_right fun inside => inside.after xs
  · cases more with
    | nil =>
        rw [List.append_nil] at left
        rw [List.nil_append] at right
        have inside := (second [] p rest right.symm c change).imp_right fun inside =>
          inside.after xs
        rwa [List.append_nil, left] at inside
    | cons q more =>
        obtain ⟨rfl, rfl⟩ := List.cons.inj right
        exact (first front p more left c change).imp_right fun inside => inside.before ys

theorem cons {moment : Moment}
    (here : ∀ c, moment.deed = .change c → moment.frames = frames)
    (rest : contract.Frames settings frames ys) :
    contract.Frames settings frames (moment :: ys) := by
  have alone : contract.Frames settings frames [moment] := by
    intro front p rest split c change
    cases front with
    | nil =>
        obtain ⟨rfl, -⟩ := List.cons.inj split
        exact .inl (here c change)
    | cons first front => exact absurd split (by simp)
  exact alone.append rest

/-- What a frame encloses, seen from outside the frame. -/
theorem enter {β : Type} {body : Rule β} {state : State} {frame : Frame}
    (encloses : contract.encloses frame body)
    (inner : contract.Frames settings (frame :: frames)
      (body.moments settings depth (frame :: frames) (frame.enter state)))
    (rest : contract.Frames settings frames ys) :
    contract.Frames settings frames (⟨depth, frames, state, .enter frame⟩ ::
      (body.moments settings depth (frame :: frames) (frame.enter state) ++ ys)) := by
  have entered : contract.Frames settings frames (⟨depth, frames, state, .enter frame⟩ ::
      body.moments settings depth (frame :: frames) (frame.enter state)) := by
    intro front p rest split c change
    cases front with
    | nil =>
        obtain ⟨rfl, -⟩ := List.cons.inj split
        cases change
    | cons first front =>
        obtain ⟨rfl, within⟩ := List.cons.inj split
        rcases inner front p rest within c change with here | deeper
        · exact .inr ⟨_, frame, β, body, [], front, rest, [], rfl, here, encloses, within, rfl,
            (List.append_nil _).symm⟩
        · exact .inr (deeper.after [_])
  exact entered.append rest

end Contract.Frames

namespace Rule

variable {contract : Contract} {α : Type}

theorem Keeps.frames_at (kept : contract.KeptAt settings depth)
    (parts : ∀ runtime object context frames state,
      contract.allows frames state (.visit runtime object context) →
        contract.Frames settings frames
          (partMoments settings depth runtime object context frames state))
    {rule : Rule α} {frames : List Frame} {state : State} {post : α → State → Prop}
    (keeps : rule.Keeps contract settings frames state post) :
    contract.Frames settings frames (rule.moments settings depth frames state) := by
  induction rule generalizing frames state with
  | done a => exact .nil
  | fail runtime cause node => exact .cons (by simp) .nil
  | halt reason => exact .cons (by simp) .nil
  | look view next ih => exact ih _ keeps
  | change c next ih => exact .cons (fun _ _ => rfl) (ih keeps.2)
  | part runtime object context next ih =>
      have given := (kept runtime object context frames state keeps.1).1
      have inner := parts runtime object context frames state keeps.1
      simp only [moments, momentsWith]
      generalize TreeScript.evaluate depth runtime object context settings state = outcome
        at given ⊢
      rcases outcome with ⟨reason | x, after⟩
      · exact .cons (by simp) (inner.append .nil)
      · exact .cons (by simp) (inner.append (ih x (keeps.2 x after (given x after rfl))))
  | within frame body next body_ih ih =>
      have given := (keeps.2.at_depth kept).1
      have inner := body_ih keeps.2
      simp only [moments, momentsWith]
      generalize body.run (TreeScript.evaluate depth) settings (frame.enter state) = outcome
        at given ⊢
      rcases outcome with ⟨reason | b, after⟩
      · exact .enter keeps.1.2 inner (.cons (by simp) .nil)
      · exact .enter keeps.1.2 inner (.cons (by simp) (ih b (given b after rfl)))

end Rule

/-- If the rule of every part that may be visited keeps a contract, then in a rule that keeps it,
every change that is made directly within a frame belongs to what the frame encloses. -/
theorem Rule.Keeps.frames {α : Type} {contract : Contract} (kept : contract.Kept settings)
    {rule : Rule α} {frames : List Frame} {state : State} {post : α → State → Prop}
    (keeps : rule.Keeps contract settings frames state post) (depth : Nat) :
    contract.Frames settings frames (rule.moments settings depth frames state) := by
  refine keeps.frames_at (kept.at_depth depth) ?_
  induction depth with
  | zero => exact fun _ _ _ _ _ _ => .nil
  | succ depth ih =>
      exact fun runtime object context frames state allowed =>
        (kept runtime object context frames state allowed).frames_at (kept.at_depth depth) ih

end TreeScript
