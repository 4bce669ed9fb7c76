import TreeScript.Proofs.RenamedStates
import TreeScript.Proofs.Routine

/-!
# Twin rules

Two rules are twins when they do the same under other names: wherever they look at alike states,
they go on as twins, they change the states in the same way, they evaluate the same parts, and they
end alike. A rule never tells what places and marks there are, so the rule of a part and the rule of
the renamed part are twins. Imports are left out, since they deal with registries.
-/

namespace TreeScript

namespace Rule

/-- The rules do the same under other names, and their results are related. -/
inductive Twin (r : Renaming) : {α β : Type} → (α → β → Prop) → Rule α → Rule β → Prop
  | done {α β : Type} {R : α → β → Prop} {x : α} {y : β} : R x y → Twin r R (done x) (done y)
  | look {α β γ δ : Type} {R : α → β → Prop} {view : Settings → State → γ}
      {view' : Settings → State → δ} {next : γ → Rule α} {next' : δ → Rule β} :
      (∀ settings a b, State.Alike r a b →
        Twin r R (next (view settings a)) (next' (view' settings b))) →
      Twin r R (look view next) (look view' next')
  | change {α β : Type} {R : α → β → Prop} {c : Change} {next : Rule α} {next' : Rule β} :
      c.IsPlain → Twin r R next next' → Twin r R (change c next) (change (c.rename r) next')
  | fail {α β : Type} {R : α → β → Prop} (runtime : RuntimeId) (cause : Cause) (node : Node) :
      Twin r R (fail runtime cause node : Rule α) (fail runtime cause (node.rename r) : Rule β)
  | halt {α β : Type} {R : α → β → Prop} (reason : Interrupt) :
      Twin r R (halt reason : Rule α) (halt (reason.rename r) : Rule β)
  | part {α β : Type} {R : α → β → Prop} {runtime : RuntimeId} {object : Object}
      {context : Context} {next : Object → Rule α} {next' : Object → Rule β} :
      (∀ x, Twin r R (next x) (next' (x.rename r))) →
      Twin r R (part runtime object context next)
        (part runtime (object.rename r) (context.rename r) next')
  | within {α β γ δ : Type} {R : α → β → Prop} {S : γ → δ → Prop} {frame : Frame}
      {body : Rule γ} {body' : Rule δ} {next : γ → Rule α} {next' : δ → Rule β} :
      Twin r S body body' → (∀ x y, S x y → Twin r R (next x) (next' y)) →
      Twin r R (within frame body next) (within (frame.rename r) body' next')

/-- The second object is the first one under other names. -/
def Renamed (r : Renaming) (x y : Object) : Prop := y = x.rename r

variable {r : Renaming} {α β γ δ : Type} {runtime : RuntimeId} {context : Context}

/-- Twins one after the other are twins. -/
theorem Twin.bind {S : γ → δ → Prop} {R : α → β → Prop} {rule : Rule γ} {rule' : Rule δ}
    {f : γ → Rule α} {f' : δ → Rule β} (first : Twin r S rule rule')
    (second : ∀ x y, S x y → Twin r R (f x) (f' y)) : Twin r R (rule >>= f) (rule' >>= f') := by
  rw [bind_eq, bind_eq]
  induction first with
  | done same => exact second _ _ same
  | look _ ih => exact .look fun settings a b alike => ih settings a b alike second
  | change plain _ ih => exact .change plain (ih second)
  | fail runtime cause node => exact .fail runtime cause node
  | halt reason => exact .halt reason
  | part _ ih => exact .part fun x => ih x second
  | within body _ _ ih => exact .within body fun x y same => ih x y same second

/-- The second twin goes on with what belongs to the result of the first. -/
theorem Twin.andThen {R : α → β → Prop} {rule : Rule γ} {rule' : Rule δ} {image : γ → δ}
    {f : γ → Rule α} {f' : δ → Rule β} (first : Twin r (fun x y => y = image x) rule rule')
    (second : ∀ x, Twin r R (f x) (f' (image x))) : Twin r R (rule >>= f) (rule' >>= f') :=
  first.bind fun x _ same => same ▸ second x

theorem twin_inspect {R : α → β → Prop} {view : Settings → State → α} {view' : Settings → State → β}
    (same : ∀ settings a b, State.Alike r a b → R (view settings a) (view' settings b)) :
    Twin r R (inspect view) (inspect view') :=
  .look fun settings a b alike => .done (same settings a b alike)

theorem twin_perform {c : Change} (plain : c.IsPlain) :
    Twin r (fun _ _ => True) (perform c) (perform (c.rename r)) :=
  .change plain (.done trivial)

theorem twin_inside {R : α → β → Prop} (frame : Frame) {body : Rule α} {body' : Rule β}
    (twin : Twin r R body body') :
    Twin r R (inside frame body) (inside (frame.rename r) body') :=
  .within twin fun _ _ same => .done same

theorem twin_evaluate (runtime : RuntimeId) (object : Object) (context : Context) :
    Twin r (Renamed r) (evaluate runtime object context)
      (evaluate runtime (object.rename r) (context.rename r)) :=
  .part fun _ => .done rfl

theorem twin_evaluateNode (node : Node) (context : Context) :
    Twin r (Renamed r) (evaluate runtime (.ofNode node) context)
      (evaluate runtime (.ofNode (node.rename r)) (context.rename r)) := by
  rw [Object.ofNode_rename]
  exact twin_evaluate _ _ context

/-! ### The shared rules -/

theorem twin_all (nodes : List Node) :
    Twin r (fun xs ys => ys = xs.map (·.rename r)) (all runtime context nodes)
      (all runtime (context.rename r) (Node.renameAll r nodes)) := by
  induction nodes with
  | nil => exact .done rfl
  | cons node rest ih =>
      exact (twin_evaluateNode node context).andThen fun x => ih.andThen fun xs => .done rfl

theorem twin_each (runtime : RuntimeId) (context : Context) (nodes : List Node) :
    Twin r (fun _ _ => True) (each runtime context nodes)
      (each runtime (context.rename r) (Node.renameAll r nodes)) := by
  induction nodes with
  | nil => exact .done trivial
  | cons node rest ih => exact (twin_evaluateNode node context).bind fun _ _ _ => ih

theorem twin_last (result : Object) (nodes : List Node) :
    Twin r (Renamed r) (last runtime context result nodes)
      (last runtime (context.rename r) (result.rename r) (Node.renameAll r nodes)) := by
  induction nodes generalizing result with
  | nil => exact .done rfl
  | cons node rest ih =>
      exact (twin_evaluateNode node context).andThen fun x => ih x

theorem twin_blockIn (scope : ScopeId) (body : List Node) :
    Twin r (Renamed r) (blockIn runtime context scope body)
      (blockIn runtime (context.rename r) (r.scope scope) (Node.renameAll r body)) := by
  have statements := twin_each (r := r) runtime { context with scope, returnScope := false } body
  refine statements.bind fun _ _ _ => ?_
  cases wanted : context.returnScope with
  | true =>
      simp only [Context.rename, wanted, if_true]
      exact .done rfl
  | false =>
      simp only [Context.rename, wanted, Bool.false_eq_true, if_false]
      exact twin_inspect fun _ a b alike => congrArg Scope.returned (alike.heap.get scope)

theorem twin_reduceWithin (limit : Int) (remaining : Nat) (object : Object) :
    Twin r (fun x y => y = x.rename r) (reduceWithin runtime context limit remaining object)
      (reduceWithin runtime (context.rename r) limit remaining (object.rename r)) := by
  induction remaining generalizing object with
  | zero =>
      have isNode := Object.isNode_rename (r := r) object
      have kind := Object.kindName_rename (r := r) object
      cases object with
      | value value => exact .done rfl
      | _ =>
          simp only [Object.rename] at isNode kind
          simp only [Object.rename, reduceWithin, isNode, kind]
          split <;> exact .fail _ _ .absent
  | succ remaining ih =>
      have isNode := Object.isNode_rename (r := r) object
      have kind := Object.kindName_rename (r := r) object
      have step := (twin_evaluate (r := r) runtime object context).andThen ih
      cases object with
      | value value => exact .done rfl
      | _ =>
          simp only [Object.rename] at isNode kind step
          simp only [Object.rename, reduceWithin, isNode, kind]
          split
          · exact step
          · exact .fail _ _ .absent

theorem twin_reduce (node : Node) :
    Twin r (fun x y => y = x.rename r) (reduce runtime context (.ofNode node))
      (reduce runtime (context.rename r) (.ofNode (node.rename r))) := by
  rw [Object.ofNode_rename]
  exact .look fun settings _ _ _ => twin_reduceWithin _ _ _

theorem twin_reduceToBlockWithin (limit : Int) (remaining : Nat) (object : Object) :
    Twin r (fun x y => y = x.rename r) (reduceToBlockWithin runtime context limit remaining object)
      (reduceToBlockWithin runtime (context.rename r) limit remaining (object.rename r)) := by
  induction remaining generalizing object with
  | zero =>
      have kind := Object.kindName_rename (r := r) object
      cases object with
      | tree node =>
          cases node with
          | block body origin => exact .done rfl
          | _ => exact .fail _ _ .absent
      | _ =>
          simp only [Object.rename] at kind
          simp only [Object.rename, reduceToBlockWithin, kind]
          exact .fail _ _ .absent
  | succ remaining ih =>
      have kind := Object.kindName_rename (r := r) object
      have step := (twin_evaluate (r := r) runtime object context).andThen ih
      cases object with
      | tree node =>
          cases node with
          | call name parameters yielded origin => exact step
          | block body origin => exact .done rfl
          | _ => exact .fail _ _ .absent
      | _ =>
          simp only [Object.rename] at kind
          simp only [Object.rename, reduceToBlockWithin, kind]
          exact .fail _ _ .absent

theorem twin_reduceToBlock (node : Node) :
    Twin r (fun x y => y = x.rename r) (reduceToBlock runtime context (.ofNode node))
      (reduceToBlock runtime (context.rename r) (.ofNode (node.rename r))) := by
  rw [Object.ofNode_rename]
  exact .look fun settings _ _ _ => twin_reduceToBlockWithin _ _ _

theorem twin_trace (line : String) : Twin r (fun _ _ => True) (trace line) (trace line) := by
  refine .look fun settings a b _ => ?_
  cases settings.tracing with
  | true => exact twin_perform (c := .trace line) trivial
  | false => exact .done trivial

theorem twin_ofArithmetic (result : Except ArithmeticFault α) :
    Twin r (fun x y => y = x) (ofArithmetic result) (ofArithmetic result) := by
  cases result with
  | ok x => exact .done rfl
  | error fault => exact .halt (.failure (.arithmetic fault))

theorem twin_memoryOf (object : Object) :
    Twin r (fun x y => y = (x.1, x.2.rename r)) (memoryOf runtime context object)
      (memoryOf runtime (context.rename r) (object.rename r)) := by
  have kind := Object.kindName_rename (r := r) object
  cases object with
  | value value =>
      cases value with
      | memory name slot => cases slot <;> exact .done rfl
      | _ => exact .fail _ _ .absent
  | _ =>
      simp only [Object.rename] at kind
      simp only [Object.rename, memoryOf, kind]
      exact .fail _ _ .absent

theorem twin_truthOf (object : Object) :
    Twin r (fun x y => y = x) (truthOf runtime object) (truthOf runtime (object.rename r)) := by
  have kind := Object.kindName_rename (r := r) object
  cases object with
  | value value => exact .done (Value.holds_rename value)
  | _ =>
      simp only [Object.rename] at kind
      simp only [Object.rename, truthOf, kind]
      exact .fail _ _ .absent

theorem displayed_rename (object : Object) : displayed (object.rename r) = displayed object := by
  have writable :
      (object.rename r).value?.map Value.writable = object.value?.map Value.writable := by
    rw [Object.value?_rename, Option.map_map]
    exact congrArg (Option.map · object.value?) (funext Value.writable_rename)
  rw [displayed, displayed, writable, Layout.display_rename]

theorem twin_displayed (object : Object) :
    Twin r (fun x y => y = x) (displayed object) (displayed (object.rename r)) := by
  rw [displayed_rename]
  unfold displayed
  split
  · exact .done rfl
  · exact .halt (.failure .unwritable)

end Rule

/-! ### The builtins -/

namespace Builtin

open Rule

variable {r : Renaming} {runtime : RuntimeId} {context : Context}

theorem twin_writeSlot (slot : Slot) (body : Object) :
    Twin r (fun _ _ => True) (writeSlot context slot body)
      (writeSlot (context.rename r) (slot.rename r) (body.rename r)) :=
  twin_perform (c := .write slot context.scope body) trivial

theorem twin_freshSlot (memory : Object) :
    Twin r (fun x y => y = x.rename r) (freshSlot runtime context memory)
      (freshSlot runtime (context.rename r) (memory.rename r)) := by
  refine (twin_evaluate _ memory context).andThen fun x => ?_
  refine (twin_memoryOf x).andThen fun found => ?_
  refine .look fun settings a b alike => ?_
  simp only [Slot.rename, alike.heap.hasLocal]
  cases a.heap.hasLocal found.2.scope found.1 with
  | true => exact .fail _ _ .absent
  | false => exact .done rfl

theorem twin_runDefine (memory : Object) (yielded : Node) :
    Twin r (Renamed r) (runDefine runtime context memory yielded)
      (runDefine runtime (context.rename r) (memory.rename r) (yielded.rename r)) := by
  refine (twin_freshSlot memory).andThen fun slot => ?_
  rw [Object.ofNode_rename]
  exact (twin_writeSlot slot _).bind fun _ _ _ => .done rfl

theorem twin_runDefineNow (memory : Object) (yielded : Node) :
    Twin r (Renamed r) (runDefineNow runtime context memory yielded)
      (runDefineNow runtime (context.rename r) (memory.rename r) (yielded.rename r)) := by
  refine (twin_freshSlot memory).andThen fun slot => ?_
  refine (twin_reduce yielded).andThen fun value => ?_
  exact (twin_writeSlot slot (.value value)).bind fun _ _ _ => .done rfl

theorem twin_boundName (memory : Object) :
    Twin r (fun x y => y = x) (boundName runtime context memory)
      (boundName runtime (context.rename r) (memory.rename r)) := by
  refine (twin_memoryOf memory).andThen fun found => ?_
  refine .look fun settings a b alike => ?_
  simp only [Context.rename, alike.heap.hasLocal]
  cases a.heap.hasLocal context.scope found.1 with
  | true => exact .done rfl
  | false => exact .fail _ _ .absent

theorem twin_runSet (memory : Object) (yielded : Node) :
    Twin r (Renamed r) (runSet runtime context memory yielded)
      (runSet runtime (context.rename r) (memory.rename r) (yielded.rename r)) := by
  refine (twin_boundName memory).andThen fun name => ?_
  refine (twin_reduce yielded).andThen fun value => ?_
  exact (twin_writeSlot ⟨context.scope, name⟩ (.value value)).bind fun _ _ _ => .done rfl

theorem twin_runPrint (value : Object) :
    Twin r (Renamed r) (runPrint runtime context value)
      (runPrint runtime (context.rename r) (value.rename r)) := by
  refine (twin_evaluate _ value context).andThen fun x => ?_
  refine (twin_displayed x).andThen fun text => ?_
  exact (twin_perform (c := .print runtime text) trivial).bind fun _ _ _ => .done rfl

theorem getD_rename (objects : List Object) (i : Nat) :
    (objects.map (·.rename r)).getD i .absent = (objects.getD i .absent).rename r := by
  simp only [List.getD_eq_getElem?_getD, List.getElem?_map]
  cases objects[i]? <;> simp [Object.rename]

theorem parameterAt_rename (index : Object) :
    parameterAt (context.rename r) (index.rename r) = (parameterAt context index).rename r := by
  have absent : Object.absent = Object.absent.rename r := by simp [Object.rename]
  cases index with
  | value value =>
      cases value with
      | number n =>
          simp only [Object.rename, Value.rename, parameterAt]
          split
          · split
            · exact absent
            · exact getD_rename context.parameters _
          · exact absent
      | _ => exact absent
  | _ => exact absent

theorem twin_runReturn (value : Object) :
    Twin r (Renamed r) (runReturn context value) (runReturn (context.rename r) (value.rename r)) :=
  (twin_perform (c := .setReturned context.scope value) trivial).bind fun _ _ _ => .done rfl

theorem numbersOf_rename (objects : List Object) :
    numbersOf (objects.map (·.rename r)) = numbersOf objects := by
  rw [numbersOf, List.filterMap_map]
  refine congrArg (List.filterMap · objects) (funext fun object => ?_)
  cases object with
  | value value => cases value <;> rfl
  | _ => simp [Object.rename]

theorem textsOf_rename (objects : List Object) :
    textsOf (objects.map (·.rename r)) = textsOf objects := by
  rw [textsOf, List.filterMap_map]
  refine congrArg (List.filterMap · objects) (funext fun object => ?_)
  cases object with
  | value value => cases value <;> rfl
  | _ => simp [Object.rename]

theorem twin_runAdd (arguments : List Object) :
    Twin r (Renamed r) (runAdd runtime arguments)
      (runAdd runtime (arguments.map (·.rename r))) := by
  cases arguments with
  | nil => exact .fail _ _ .absent
  | cons first rest =>
      have others :
          (rest.map (·.rename r)).find? (fun x => x.kindName != (first.rename r).kindName) =
            (rest.find? fun x => x.kindName != first.kindName).map (·.rename r) := by
        rw [List.find?_map]
        refine congrArg (fun p => (rest.find? p).map _) (funext fun x => ?_)
        simp
      have numbers := numbersOf_rename (r := r) (first :: rest)
      have texts := textsOf_rename (r := r) (first :: rest)
      have kind := Object.kindName_rename (r := r) first
      simp only [List.map_cons] at numbers texts
      simp only [List.map_cons, runAdd, others]
      cases rest.find? fun x => x.kindName != first.kindName with
      | some other =>
          simp only [Option.map_some, Object.kindName_rename]
          exact .fail _ _ .absent
      | none =>
          simp only [Option.map_none, numbers, texts]
          cases first with
          | value value =>
              cases value with
              | number n =>
                  exact (twin_ofArithmetic _).andThen fun sum => .done rfl
              | text s => exact .done rfl
              | _ => exact .fail _ _ .absent
          | _ =>
              simp only [Object.rename] at kind
              simp only [Object.rename, kind]
              exact .fail _ _ .absent

theorem runSub_rename (a b : Object) :
    runSub runtime (a.rename r) (b.rename r) = runSub runtime a b := by
  cases a with
  | value x =>
      cases x with
      | number m =>
          cases b with
          | value y => cases y <;> rfl
          | _ => rfl
      | _ => rfl
  | _ => rfl

theorem twin_runSub (a b : Object) :
    Twin r (Renamed r) (runSub runtime a b) (runSub runtime (a.rename r) (b.rename r)) := by
  rw [runSub_rename]
  unfold runSub
  split
  · exact (twin_ofArithmetic _).andThen fun difference => .done rfl
  · exact .fail _ _ .absent

theorem runMul_rename (a b : Object) :
    runMul runtime (a.rename r) (b.rename r) = runMul runtime a b := by
  cases b with
  | value y =>
      cases y with
      | number count =>
          have kind := Object.kindName_rename (r := r) a
          cases a with
          | value x => cases x <;> rfl
          | _ =>
              simp only [Object.rename] at kind
              simp only [Object.rename, Value.rename, runMul, kind]
      | _ => rfl
  | _ => rfl

theorem twin_runMul (a b : Object) :
    Twin r (Renamed r) (runMul runtime a b) (runMul runtime (a.rename r) (b.rename r)) := by
  rw [runMul_rename]
  unfold runMul
  split
  · split
    · exact (twin_ofArithmetic _).andThen fun product => .done rfl
    · exact (twin_ofArithmetic _).andThen fun text => .done rfl
    · exact .fail _ _ .absent
  · exact .fail _ _ .absent

theorem runDiv_rename (a b : Object) :
    runDiv runtime (a.rename r) (b.rename r) = runDiv runtime a b := by
  cases a with
  | value x =>
      cases x with
      | number m =>
          cases b with
          | value y => cases y <;> rfl
          | _ => rfl
      | _ => rfl
  | _ => rfl

theorem twin_runDiv (a b : Object) :
    Twin r (Renamed r) (runDiv runtime a b) (runDiv runtime (a.rename r) (b.rename r)) := by
  rw [runDiv_rename]
  unfold runDiv
  split
  · exact (twin_ofArithmetic _).andThen fun quotient => .done rfl
  · exact .fail _ _ .absent

theorem twin_runStr (value : Object) :
    Twin r (Renamed r) (runStr value) (runStr (value.rename r)) := by
  exact (twin_displayed value).andThen fun text => .done rfl

theorem runNum_rename (value : Object) :
    runNum runtime (value.rename r) = runNum runtime value := by
  have kind := Object.kindName_rename (r := r) value
  cases value with
  | value value => cases value <;> rfl
  | _ =>
      simp only [Object.rename] at kind
      simp only [Object.rename, runNum, kind]

theorem twin_runNum (value : Object) :
    Twin r (Renamed r) (runNum runtime value) (runNum runtime (value.rename r)) := by
  rw [runNum_rename]
  unfold runNum
  split
  · split
    · exact .done rfl
    · exact .fail _ _ .absent
  · simp only []
    split
    · exact .fail _ _ .absent
    · exact .done rfl
    · exact .halt (.failure (.tooManyDigits _))
    · exact .fail _ _ .absent
  · exact .fail _ _ .absent

theorem twin_runObj (memory : Object) (yielded : Node) :
    Twin r (Renamed r) (runObj runtime context memory yielded)
      (runObj runtime (context.rename r) (memory.rename r) (yielded.rename r)) := by
  refine (twin_memoryOf memory).andThen fun found => ?_
  refine (twin_reduceToBlock yielded).andThen fun block => ?_
  have inner := twin_evaluate (r := r) runtime (.tree block)
    { context with returnScope := true }
  refine inner.andThen fun space => ?_
  cases space with
  | scope id =>
      have attached := twin_perform (r := r) (c := .attach context.scope found.1 id) trivial
      exact attached.bind fun _ _ _ => .done rfl
  | _ => exact .done rfl

theorem twin_runWhen (wanted : Bool) (condition : Object) (yielded : Node) :
    Twin r (Renamed r) (runWhen runtime context wanted condition yielded)
      (runWhen runtime (context.rename r) wanted (condition.rename r) (yielded.rename r)) := by
  refine (twin_evaluate _ condition context).andThen fun x => ?_
  refine (twin_truthOf x).andThen fun holds => ?_
  split
  · exact (twin_evaluateNode yielded context).bind fun _ _ _ => .done rfl
  · exact .done rfl

theorem twin_runNot (condition : Object) :
    Twin r (Renamed r) (runNot runtime context condition)
      (runNot runtime (context.rename r) (condition.rename r)) := by
  refine (twin_evaluate _ condition context).andThen fun x => ?_
  exact (twin_truthOf x).andThen fun holds => .done rfl

theorem twin_runExists (name : Object) :
    Twin r (Renamed r) (runExists runtime context name)
      (runExists runtime (context.rename r) (name.rename r)) := by
  have found (key : String) : Twin r (Renamed r)
      (inspect fun _ state => .value (.boolean (state.heap.owner? context.scope key).isSome))
      (inspect fun _ state =>
        .value (.boolean (state.heap.owner? (context.rename r).scope key).isSome)) := by
    refine twin_inspect fun _ a b alike => ?_
    simp [Context.rename, alike.heap.owner?, Renamed, Object.rename, Value.rename]
  have kind := Object.kindName_rename (r := r) name
  cases name with
  | value value =>
      cases value with
      | memory key slot => exact found key
      | text key => exact found key
      | _ => exact .fail _ _ .absent
  | _ =>
      simp only [Object.rename] at kind
      simp only [Object.rename, runExists, kind]
      exact .fail _ _ .absent

theorem twin_runIs (value : Object) (yielded : Node) :
    Twin r (Renamed r) (runIs runtime context value yielded)
      (runIs runtime (context.rename r) (value.rename r) (yielded.rename r)) := by
  refine (twin_evaluate _ value context).andThen fun left => ?_
  refine (twin_evaluateNode yielded context).andThen fun right => ?_
  rw [sameObject_rename]
  exact .done rfl

end Builtin

open Rule

variable {r : Renaming}

/-- A builtin does the same under other names. -/
theorem Invocation.twin_rule (invocation : Invocation) :
    Twin r (Renamed r) invocation.rule (invocation.rename r).rule := by
  have argument := Builtin.getD_rename (r := r) invocation.arguments
  simp only [Invocation.rule, Invocation.rename, Builtin.run, argument]
  cases invocation.builtin with
  | define => exact Builtin.twin_runDefine _ _
  | defineNow => exact Builtin.twin_runDefineNow _ _
  | set => exact Builtin.twin_runSet _ _
  | print => exact Builtin.twin_runPrint _
  | param => exact .done (Builtin.parameterAt_rename _)
  | yield => exact twin_evaluateNode _ _
  | «return» => exact Builtin.twin_runReturn _
  | add => exact Builtin.twin_runAdd _
  | sub => exact Builtin.twin_runSub _ _
  | mul => exact Builtin.twin_runMul _ _
  | div => exact Builtin.twin_runDiv _ _
  | str => exact Builtin.twin_runStr _
  | num => exact Builtin.twin_runNum _
  | obj => exact Builtin.twin_runObj _ _
  | «if» => exact Builtin.twin_runWhen true _ _
  | «unless» => exact Builtin.twin_runWhen false _ _
  | not => exact Builtin.twin_runNot _
  | «exists» => exact Builtin.twin_runExists _
  | is => exact Builtin.twin_runIs _ _

end TreeScript
