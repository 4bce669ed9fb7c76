import TreeScript.Proofs.Moment

/-!
# Contracts

A contract says what holds at each moment before it is done, and what a part gives. A rule keeps a
contract when it does, provided its parts give what they should. `Rule.Keeps.sound` turns this
round: if the rule of every part that may be visited keeps the contract, then so does every
evaluation, at each of its moments and however deep they lie.
-/

namespace TreeScript

/-- What holds at each moment before it is done, what may be done within a frame, and what comes of
a part that is evaluated in a state. -/
structure Contract where
  allows : List Frame → State → Deed → Prop
  encloses : {β : Type} → Frame → Rule β → Prop
  gives : State → Object → State → Prop
  /-- Nothing else is asked of the innermost frame that is left, since it may be left on the way out
  of an error. -/
  allows_leave : ∀ frames state frame, allows (frame :: frames) state (.leave frame)

namespace Rule

variable (contract : Contract) (settings : Settings)

/-- The rule keeps the contract within some frames and from a state on, and if it gives a result,
then that and the state have the property. -/
def Keeps : {α : Type} → Rule α → List Frame → State → (α → State → Prop) → Prop
  | _, done a, _, state, post => post a state
  | _, look view next, frames, state, post =>
      (next (view settings state)).Keeps frames state post
  | _, change c next, frames, state, post =>
      contract.allows frames state (.change c) ∧ next.Keeps frames (c.apply state) post
  | _, fail runtime cause node, frames, state, _ =>
      contract.allows frames state (.fail runtime cause node)
  | _, halt reason, frames, state, _ => contract.allows frames state (.halt reason)
  | _, part runtime object context next, frames, state, post =>
      contract.allows frames state (.visit runtime object context) ∧
        ∀ x after, contract.gives state x after → (next x).Keeps frames after post
  | _, within frame body next, frames, state, post =>
      (contract.allows frames state (.enter frame) ∧ contract.encloses frame body) ∧
        body.Keeps (frame :: frames) (frame.enter state) fun b after =>
          (next b).Keeps frames (frame.leave after) post

variable {contract : Contract} {settings : Settings} {α β : Type}
variable {frames : List Frame} {state : State}

/-- What follows from the property may take its place. -/
theorem Keeps.mono {rule : Rule α} {post post' : α → State → Prop}
    (keeps : rule.Keeps contract settings frames state post)
    (imp : ∀ a after, post a after → post' a after) :
    rule.Keeps contract settings frames state post' := by
  induction rule generalizing frames state with
  | done a => exact imp a state keeps
  | fail runtime cause node => exact keeps
  | halt reason => exact keeps
  | look view next ih => exact ih _ keeps imp
  | change c next ih => exact ⟨keeps.1, ih keeps.2 imp⟩
  | part runtime object context next ih =>
      exact ⟨keeps.1, fun x after given => ih x (keeps.2 x after given) imp⟩
  | within frame body next body_ih ih =>
      exact ⟨keeps.1, body_ih keeps.2 fun b after inner => ih b inner imp⟩

@[simp] theorem keeps_pure (a : α) (post : α → State → Prop) :
    (pure a : Rule α).Keeps contract settings frames state post ↔ post a state := Iff.rfl

/-- One rule and then another: the second keeps the contract wherever the first ends. -/
@[simp] theorem keeps_bind (rule : Rule α) (f : α → Rule β) (post : β → State → Prop) :
    (rule >>= f).Keeps contract settings frames state post ↔
      rule.Keeps contract settings frames state fun a after =>
        (f a).Keeps contract settings frames after post := by
  rw [bind_eq]
  induction rule generalizing frames state with
  | done a => rfl
  | fail runtime cause node => rfl
  | halt reason => rfl
  | look view next ih => exact ih _ f
  | change c next ih => simp only [Rule.bind, Keeps, ih]
  | part runtime object context next ih => simp only [Rule.bind, Keeps, ih]
  | within frame body next body_ih ih => simp only [Rule.bind, Keeps, ih]

@[simp] theorem keeps_inspect (view : Settings → State → α) (post : α → State → Prop) :
    (inspect view).Keeps contract settings frames state post ↔
      post (view settings state) state := Iff.rfl

@[simp] theorem keeps_perform (c : Change) (post : Unit → State → Prop) :
    (perform c).Keeps contract settings frames state post ↔
      contract.allows frames state (.change c) ∧ post () (c.apply state) := Iff.rfl

@[simp] theorem keeps_evaluate (runtime : RuntimeId) (object : Object) (context : Context)
    (post : Object → State → Prop) :
    (evaluate runtime object context).Keeps contract settings frames state post ↔
      contract.allows frames state (.visit runtime object context) ∧
        ∀ x after, contract.gives state x after → post x after := Iff.rfl

@[simp] theorem keeps_inside (frame : Frame) (body : Rule α) (post : α → State → Prop) :
    (inside frame body).Keeps contract settings frames state post ↔
      (contract.allows frames state (.enter frame) ∧ contract.encloses frame body) ∧
        body.Keeps contract settings (frame :: frames) (frame.enter state) fun a after =>
          post a (frame.leave after) := Iff.rfl

@[simp] theorem keeps_fail (runtime : RuntimeId) (cause : Cause) (node : Node)
    (post : α → State → Prop) :
    (fail runtime cause node).Keeps contract settings frames state post ↔
      contract.allows frames state (.fail runtime cause node) := Iff.rfl

@[simp] theorem keeps_halt (reason : Interrupt) (post : α → State → Prop) :
    (halt reason).Keeps contract settings frames state post ↔
      contract.allows frames state (.halt reason) := Iff.rfl

@[simp] theorem keeps_failure (reason : Failure) (post : α → State → Prop) :
    (failure reason).Keeps contract settings frames state post ↔
      contract.allows frames state (.halt (.failure reason)) := Iff.rfl

end Rule

namespace Contract

/-- The rule of every part that may be visited keeps the contract. -/
def Kept (contract : Contract) (settings : Settings) : Prop :=
  ∀ runtime object context frames state,
    contract.allows frames state (.visit runtime object context) →
      (evaluateStep runtime object context).Keeps contract settings frames state
        (contract.gives state)

/-- At a depth every part that may be visited gives what it should, through allowed moments. -/
def KeptAt (contract : Contract) (settings : Settings) (depth : Nat) : Prop :=
  ∀ runtime object context frames state,
    contract.allows frames state (.visit runtime object context) →
      (∀ x after, evaluate depth runtime object context settings state = (.ok x, after) →
        contract.gives state x after) ∧
      ∀ m ∈ partMoments settings depth runtime object context frames state,
        contract.allows m.frames m.state m.deed

end Contract

namespace Rule

variable {contract : Contract} {settings : Settings} {α : Type} {depth : Nat}

theorem Keeps.at_depth (kept : contract.KeptAt settings depth) {rule : Rule α}
    {frames : List Frame} {state : State} {post : α → State → Prop}
    (keeps : rule.Keeps contract settings frames state post) :
    (∀ a after, rule.run (TreeScript.evaluate depth) settings state = (.ok a, after) →
      post a after) ∧
    ∀ m ∈ rule.moments settings depth frames state,
      contract.allows m.frames m.state m.deed := by
  unfold moments
  induction rule generalizing frames state with
  | done a =>
      refine ⟨fun b after h => ?_, by simp [momentsWith]⟩
      simp only [run, Prod.mk.injEq, Except.ok.injEq] at h
      obtain ⟨rfl, rfl⟩ := h
      exact keeps
  | fail runtime cause node => exact ⟨by simp [run], by simpa [momentsWith] using keeps⟩
  | halt reason => exact ⟨by simp [run], by simpa [momentsWith] using keeps⟩
  | look view next ih => exact ih _ keeps
  | change c next ih =>
      obtain ⟨result, middle⟩ := ih keeps.2
      exact ⟨result, List.forall_mem_cons.mpr ⟨keeps.1, middle⟩⟩
  | part runtime object context next ih =>
      obtain ⟨given, inner⟩ := kept runtime object context frames state keeps.1
      simp only [run, momentsWith]
      generalize TreeScript.evaluate depth runtime object context settings state = outcome
        at given ⊢
      rcases outcome with ⟨reason | x, after⟩
      · exact ⟨by simp, List.forall_mem_cons.mpr ⟨keeps.1, by simpa using inner⟩⟩
      · obtain ⟨result, later⟩ := ih x (keeps.2 x after (given x after rfl))
        exact ⟨result, List.forall_mem_cons.mpr
          ⟨keeps.1, List.forall_mem_append.mpr ⟨inner, later⟩⟩⟩
  | within frame body next body_ih ih =>
      obtain ⟨given, inner⟩ := body_ih keeps.2
      simp only [run, momentsWith]
      generalize body.run (TreeScript.evaluate depth) settings (frame.enter state) = outcome
        at given ⊢
      rcases outcome with ⟨reason | b, after⟩
      · refine ⟨by simp, List.forall_mem_cons.mpr ⟨keeps.1.1, List.forall_mem_append.mpr
          ⟨inner, ?_⟩⟩⟩
        simpa using contract.allows_leave _ _ _
      · obtain ⟨result, later⟩ := ih b (given b after rfl)
        exact ⟨result, List.forall_mem_cons.mpr ⟨keeps.1.1, List.forall_mem_append.mpr
          ⟨inner, List.forall_mem_cons.mpr ⟨contract.allows_leave _ _ _, later⟩⟩⟩⟩

end Rule

theorem Contract.Kept.at_depth {contract : Contract} {settings : Settings}
    (kept : contract.Kept settings) (depth : Nat) : contract.KeptAt settings depth := by
  induction depth with
  | zero =>
      refine fun _ _ _ _ _ _ => ⟨fun x after h => ?_, by simp [partMoments]⟩
      simp [evaluate] at h
  | succ depth ih =>
      intro runtime object context frames state allowed
      exact (kept runtime object context frames state allowed).at_depth ih

/-- If the rule of every part that may be visited keeps a contract, then a rule that keeps it gives
what it should, and each of its moments is allowed, those within its parts included. -/
theorem Rule.Keeps.sound {α : Type} {contract : Contract} {settings : Settings}
    (kept : contract.Kept settings) {rule : Rule α} {frames : List Frame} {state : State}
    {post : α → State → Prop} (keeps : rule.Keeps contract settings frames state post)
    (depth : Nat) :
    (∀ a after, rule.run (TreeScript.evaluate depth) settings state = (.ok a, after) →
      post a after) ∧
    ∀ m ∈ rule.moments settings depth frames state, contract.allows m.frames m.state m.deed :=
  keeps.at_depth (kept.at_depth depth)

/-! ### What is done within a frame -/

/-- After each moment at which a frame is entered come the moments of what it encloses. -/
def Contract.Encloses (contract : Contract) (settings : Settings) (moments : List Moment) : Prop :=
  ∀ m ∈ moments, ∀ frame, m.deed = .enter frame →
    ∃ (β : Type) (body : Rule β) (before after : List Moment), contract.encloses frame body ∧
      moments = before ++ m ::
        (body.moments settings m.depth (frame :: m.frames) (frame.enter m.state) ++ after)

namespace Contract.Encloses

variable {contract : Contract} {settings : Settings} {xs ys : List Moment}

theorem append (first : contract.Encloses settings xs) (second : contract.Encloses settings ys) :
    contract.Encloses settings (xs ++ ys) := by
  intro m mem frame enters
  rcases List.mem_append.mp mem with early | late
  · obtain ⟨β, body, before, after, encloses, eq⟩ := first m early frame enters
    exact ⟨β, body, before, after ++ ys, encloses, by rw [eq]; simp⟩
  · obtain ⟨β, body, before, after, encloses, eq⟩ := second m late frame enters
    exact ⟨β, body, xs ++ before, after, encloses, by rw [eq]; simp⟩

theorem cons {moment : Moment} (other : ∀ frame, moment.deed ≠ .enter frame)
    (rest : contract.Encloses settings ys) : contract.Encloses settings (moment :: ys) := by
  intro m mem frame enters
  rcases List.mem_cons.mp mem with rfl | late
  · exact absurd enters (other frame)
  · obtain ⟨β, body, before, after, encloses, eq⟩ := rest m late frame enters
    exact ⟨β, body, moment :: before, after, encloses, by rw [eq]; rfl⟩

theorem nil : contract.Encloses settings [] := fun _ mem => absurd mem List.not_mem_nil

/-- A frame that is entered, what it encloses, and whatever comes after it. -/
theorem enter {β : Type} {body : Rule β} {depth : Nat} {frames : List Frame} {state : State}
    {frame : Frame} (encloses : contract.encloses frame body)
    (inner : contract.Encloses settings
      (body.moments settings depth (frame :: frames) (frame.enter state)))
    (rest : contract.Encloses settings ys) :
    contract.Encloses settings (⟨depth, frames, state, .enter frame⟩ ::
      (body.moments settings depth (frame :: frames) (frame.enter state) ++ ys)) := by
  intro m mem other enters
  rcases List.mem_cons.mp mem with rfl | late
  · cases enters
    exact ⟨β, body, [], ys, encloses, rfl⟩
  · obtain ⟨β', body', before, after, encloses', eq⟩ := inner.append rest m late other enters
    exact ⟨β', body', _ :: before, after, encloses', by rw [eq]; rfl⟩

end Contract.Encloses

namespace Rule

variable {contract : Contract} {settings : Settings} {α : Type} {depth : Nat}

theorem Keeps.enclosed_at (kept : contract.KeptAt settings depth)
    (parts : ∀ runtime object context frames state,
      contract.allows frames state (.visit runtime object context) →
        contract.Encloses settings
          (partMoments settings depth runtime object context frames state))
    {rule : Rule α} {frames : List Frame} {state : State} {post : α → State → Prop}
    (keeps : rule.Keeps contract settings frames state post) :
    contract.Encloses settings (rule.moments settings depth frames state) := by
  induction rule generalizing frames state with
  | done a => exact .nil
  | fail runtime cause node => exact .cons (by simp) .nil
  | halt reason => exact .cons (by simp) .nil
  | look view next ih => exact ih _ keeps
  | change c next ih => exact .cons (by simp) (ih keeps.2)
  | part runtime object context next ih =>
      have given := (kept runtime object context frames state keeps.1).1
      have inner := parts runtime object context frames state keeps.1
      simp only [moments, momentsWith]
      generalize TreeScript.evaluate depth runtime object context settings state = outcome
        at given ⊢
      rcases outcome with ⟨reason | x, after⟩
      · exact .cons (by simp) (inner.append .nil)
      · exact .cons (by simp) (inner.append (ih x (keeps.2 x after (given x after rfl))))
  | within frame body next body_ih ih =>
      have given := (keeps.2.at_depth kept).1
      have inner := body_ih keeps.2
      simp only [moments, momentsWith]
      generalize body.run (TreeScript.evaluate depth) settings (frame.enter state) = outcome
        at given ⊢
      rcases outcome with ⟨reason | b, after⟩
      · exact .enter keeps.1.2 inner (.cons (by simp) .nil)
      · exact .enter keeps.1.2 inner (.cons (by simp) (ih b (given b after rfl)))

end Rule

/-- If the rule of every part that may be visited keeps a contract, then in a rule that keeps it,
each frame that is entered encloses what the contract says. -/
theorem Rule.Keeps.enclosed {α : Type} {contract : Contract} {settings : Settings}
    (kept : contract.Kept settings) {rule : Rule α} {frames : List Frame} {state : State}
    {post : α → State → Prop} (keeps : rule.Keeps contract settings frames state post)
    (depth : Nat) : contract.Encloses settings (rule.moments settings depth frames state) := by
  refine keeps.enclosed_at (kept.at_depth depth) ?_
  induction depth with
  | zero => exact fun _ _ _ _ _ _ => .nil
  | succ depth ih =>
      exact fun runtime object context frames state allowed =>
        (kept runtime object context frames state allowed).enclosed_at (kept.at_depth depth) ih

/-! ### Two contracts -/

/-- What both contracts ask for, and what comes of a part by both. -/
def Contract.both (first second : Contract) : Contract where
  allows frames state deed := first.allows frames state deed ∧ second.allows frames state deed
  encloses frame body := first.encloses frame body ∧ second.encloses frame body
  gives state x after := first.gives state x after ∧ second.gives state x after
  allows_leave frames state frame :=
    ⟨first.allows_leave frames state frame, second.allows_leave frames state frame⟩

section

variable {first second : Contract} {settings : Settings}

/-- A rule that keeps two contracts keeps both at once. -/
theorem Rule.Keeps.both {α : Type} {rule : Rule α} {frames : List Frame} {state : State}
    {post post' : α → State → Prop} (one : rule.Keeps first settings frames state post)
    (two : rule.Keeps second settings frames state post') :
    rule.Keeps (first.both second) settings frames state fun a after =>
      post a after ∧ post' a after := by
  induction rule generalizing frames state with
  | done a => exact ⟨one, two⟩
  | fail runtime cause node => exact ⟨one, two⟩
  | halt reason => exact ⟨one, two⟩
  | look view next ih => exact ih _ one two
  | change c next ih => exact ⟨⟨one.1, two.1⟩, ih one.2 two.2⟩
  | part runtime object context next ih =>
      exact ⟨⟨one.1, two.1⟩, fun x after given =>
        ih x (one.2 x after given.1) (two.2 x after given.2)⟩
  | within frame body next body_ih ih =>
      obtain ⟨⟨enters, encloses⟩, inner⟩ := one
      obtain ⟨⟨enters', encloses'⟩, inner'⟩ := two
      refine ⟨⟨⟨enters, enters'⟩, encloses, encloses'⟩, ?_⟩
      exact (body_ih inner inner').mono fun b after later => ih b later.1 later.2

theorem Contract.Kept.both (one : first.Kept settings) (two : second.Kept settings) :
    (first.both second).Kept settings :=
  fun runtime object context frames state allowed =>
    (one runtime object context frames state allowed.1).both
      (two runtime object context frames state allowed.2)

end

end TreeScript
