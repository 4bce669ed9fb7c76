import TreeScript.Evaluation.Step

/-!
# Actions

An action reads the settings, changes the state, and ends with a result or an interrupt. What was
changed before an interrupt stays changed.
-/

namespace TreeScript

def Action (α : Type) : Type := Settings → State → Except Interrupt α × State

namespace Action

variable {α β : Type}

protected def pure (a : α) : Action α := fun _ state => (.ok a, state)

/-- One action and then another; an interrupt of the first is passed on. -/
protected def bind (action : Action α) (next : α → Action β) : Action β :=
  fun settings state =>
    match action settings state with
    | (.ok a, state) => next a settings state
    | (.error interrupt, state) => (.error interrupt, state)

instance : Monad Action where
  pure := Action.pure
  bind := Action.bind

def settings : Action Settings := fun settings state => (.ok settings, state)

def inspect (view : State → α) : Action α := fun _ state => (.ok (view state), state)

def update (change : State → State) : Action Unit := fun _ state => (.ok (), change state)

def interrupt (reason : Interrupt) : Action α := fun _ state => (.error reason, state)

def failure (reason : Failure) : Action α := interrupt (.failure reason)

def attempt (action : Action α) : Action (Except Interrupt α) :=
  fun settings state =>
    let (result, state) := action settings state
    (.ok result, state)

/-! ### What each action does -/

@[simp] theorem pure_apply (a : α) (settings : Settings) (state : State) :
    (pure a : Action α) settings state = (.ok a, state) := rfl

theorem bind_apply (action : Action α) (next : α → Action β) (settings : Settings)
    (state : State) :
    (action >>= next) settings state = match action settings state with
      | (.ok a, state) => next a settings state
      | (.error reason, state) => (.error reason, state) := rfl

@[simp] theorem inspect_apply (view : State → α) (settings : Settings) (state : State) :
    inspect view settings state = (.ok (view state), state) := rfl

@[simp] theorem update_apply (change : State → State) (settings : Settings) (state : State) :
    update change settings state = (.ok (), change state) := rfl

@[simp] theorem interrupt_apply (reason : Interrupt) (settings : Settings) (state : State) :
    (interrupt reason : Action α) settings state = (.error reason, state) := rfl

theorem map_id (action : Action α) : id <$> action = action := by
  funext settings state
  simp only [Functor.map, Action.bind, Function.comp]
  rcases action settings state with ⟨_ | _, _⟩ <;> rfl

theorem bind_bind {γ : Type} (action : Action α) (f : α → Action β) (g : β → Action γ) :
    action >>= f >>= g = action >>= fun a => f a >>= g := by
  funext settings state
  simp only [bind, Action.bind]
  rcases action settings state with ⟨_ | _, _⟩ <;> rfl

instance : LawfulMonad Action :=
  LawfulMonad.mk' Action map_id (fun _ _ => rfl) bind_bind

end Action

end TreeScript
