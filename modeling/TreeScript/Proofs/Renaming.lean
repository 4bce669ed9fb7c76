import TreeScript.Evaluation

/-!
# Renaming

Scopes are known by their places and trees by their marks. Which places and which marks these are
does not matter: a renaming gives each scope and each mark another one, different ones for different
ones. What can be seen of an object, its kind, its text and whether it is the same as another one,
does not change with it.
-/

namespace TreeScript

/-- Other places for scopes and other marks for trees. No scope gets an earlier place. -/
structure Renaming where
  scope : ScopeId → ScopeId
  mark : Nat → Nat
  scope_injective : ∀ {i j}, scope i = scope j → i = j
  mark_injective : ∀ {m n}, mark m = mark n → m = n
  le_scope : ∀ i, i ≤ scope i

variable (r : Renaming)

/-! ### Trees -/

def Origin.rename (origin : Origin) : Origin := { origin with mark := r.mark origin.mark }

namespace Node

mutual

/-- The tree with other marks. -/
def rename : Node → Node
  | absent => absent
  | list mark items => list (r.mark mark) (renameAll items)
  | number n o => number n (o.rename r)
  | text s o => text s (o.rename r)
  | boolean b o => boolean b (o.rename r)
  | memory name o => memory name (o.rename r)
  | call name parameters yielded o =>
      call name (renameAll parameters) (rename yielded) (o.rename r)
  | block body o => block (renameAll body) (o.rename r)
  | program body o => program (renameAll body) (o.rename r)
  | group body o => group (renameAll body) (o.rename r)
  | moduleImport name o => moduleImport name (o.rename r)

def renameAll : List Node → List Node
  | [] => []
  | node :: rest => rename node :: renameAll rest

end

variable {r}

@[simp] theorem kindName_rename (node : Node) : (node.rename r).kindName = node.kindName := by
  cases node <;> rfl

@[simp] theorem callName?_rename (node : Node) : (node.rename r).callName? = node.callName? := by
  cases node <;> rfl

@[simp] theorem location?_rename (node : Node) : (node.rename r).location? = node.location? := by
  cases node <;> rfl

@[simp] theorem mark?_rename (node : Node) : (node.rename r).mark? = node.mark?.map r.mark := by
  cases node <;> rfl

theorem isEmpty_renameAll (nodes : List Node) : (renameAll r nodes).isEmpty = nodes.isEmpty := by
  cases nodes <;> rfl

mutual

/-- A tree that is marked from a later mark on differs in its marks alone. -/
theorem mark_rename {next next' : Nat} (same : ∀ i, r.mark (next + i) = next' + i) (node : Node) :
    (node.mark next').1 = (node.mark next).1.rename r ∧
      ∀ i, r.mark ((node.mark next).2 + i) = (node.mark next').2 + i := by
  have here : r.mark next = next' := same 0
  have later (i : Nat) : r.mark (next + 1 + i) = next' + 1 + i := by
    rw [Nat.add_assoc, Nat.add_assoc]
    exact same (1 + i)
  cases node with
  | absent => exact ⟨rfl, same⟩
  | list mark items =>
      obtain ⟨parts, after⟩ := markAll_rename later items
      simp only [Node.mark, rename, parts, here]
      exact ⟨trivial, after⟩
  | call name parameters yielded origin =>
      obtain ⟨parts, middle⟩ := markAll_rename later parameters
      obtain ⟨under, after⟩ := mark_rename middle yielded
      simp only [Node.mark, rename, Origin.rename, parts, under, here]
      exact ⟨trivial, after⟩
  | block body origin | program body origin | group body origin =>
      obtain ⟨parts, after⟩ := markAll_rename later body
      simp only [Node.mark, rename, Origin.rename, parts, here]
      exact ⟨trivial, after⟩
  | number | text | boolean | memory | moduleImport =>
      simp only [Node.mark, rename, Origin.rename, here]
      exact ⟨trivial, later⟩

theorem markAll_rename {next next' : Nat} (same : ∀ i, r.mark (next + i) = next' + i)
    (nodes : List Node) :
    (markAll next' nodes).1 = renameAll r (markAll next nodes).1 ∧
      ∀ i, r.mark ((markAll next nodes).2 + i) = (markAll next' nodes).2 + i := by
  match nodes with
  | [] => exact ⟨rfl, same⟩
  | node :: rest =>
      obtain ⟨first, middle⟩ := mark_rename same node
      obtain ⟨others, after⟩ := markAll_rename middle rest
      simp only [markAll, renameAll, first, others]
      exact ⟨trivial, after⟩

end

end Node

namespace Layout

variable {r}

mutual

@[simp] theorem nodeText_rename (width level : Nat) (node : Node) :
    nodeText width level (node.rename r) = nodeText width level node := by
  cases node with
  | list mark items =>
      simp only [Node.rename, nodeText]
      rw [nodeTexts_renameAll width level items]
  | call name parameters yielded origin =>
      have parts := nodeTexts_renameAll width level parameters
      by_cases none : yielded = .absent
      · subst none
        simp only [Node.rename, nodeText, parts]
      · have some : yielded.rename r ≠ .absent := by
          cases yielded <;> simp_all [Node.rename]
        rw [Node.rename, nodeText_call width level _ _ _ some, nodeText_call width level _ _ _ none,
          parts, nodeText_rename width level yielded]
  | block body origin =>
      simp only [Node.rename, nodeText]
      rw [nodeTexts_renameAll width (level + 1) body]
  | program body origin | group body origin =>
      simp only [Node.rename, nodeText]
      rw [nodeTexts_renameAll width level body]
  | absent | number | text | boolean | memory | moduleImport => rfl

theorem nodeTexts_renameAll (width level : Nat) (nodes : List Node) :
    nodeTexts width level (Node.renameAll r nodes) = nodeTexts width level nodes := by
  match nodes with
  | [] => rfl
  | node :: rest =>
      simp only [Node.renameAll, nodeTexts]
      rw [nodeText_rename width level node, nodeTexts_renameAll width level rest]

end

mutual

@[simp] theorem nodeObstacle?_rename (room : Nat) (node : Node) :
    nodeObstacle? room (node.rename r) = nodeObstacle? room node := by
  cases node with
  | list _ items | program items _ | group items _ =>
      simp only [Node.rename, nodeObstacle?, nodesObstacle?_renameAll]
  | call name parameters yielded origin =>
      by_cases none : yielded = .absent
      · subst none
        simp only [Node.rename, nodeObstacle?, nodesObstacle?_renameAll]
      · have some : yielded.rename r ≠ .absent := by
          cases yielded <;> simp_all [Node.rename]
        simp only [Node.rename, nodeObstacle?_call _ _ _ _ some, nodeObstacle?_call _ _ _ _ none,
          nodesObstacle?_renameAll, nodeObstacle?_rename]
  | block body origin =>
      cases body with
      | nil => rfl
      | cons first rest =>
          rw [Node.rename, nodeObstacle?_block _ _ (by simp [Node.renameAll]),
            nodeObstacle?_block _ _ (by simp)]
          simp only [nodesObstacle?_renameAll]
  | absent | number | text | boolean | memory | moduleImport => rfl

theorem nodesObstacle?_renameAll (room : Nat) (nodes : List Node) :
    nodesObstacle? room (Node.renameAll r nodes) = nodesObstacle? room nodes := by
  match nodes with
  | [] => rfl
  | node :: rest =>
      simp only [Node.renameAll, nodesObstacle?, nodeObstacle?_rename, nodesObstacle?_renameAll]

end

end Layout

/-! ### Objects -/

def Slot.rename (slot : Slot) : Slot := { slot with scope := r.scope slot.scope }

def Value.rename : Value → Value
  | .memory name slot => .memory name (slot.map (·.rename r))
  | value => value

mutual

/-- The object with other scopes and other marks of trees. -/
def Object.rename : Object → Object
  | .absent => .absent
  | .value value => .value (value.rename r)
  | .scope id => .scope (r.scope id)
  | .tree node => .tree (node.rename r)
  | .function mark entry => .function mark entry.rename
  | .plain mark datum => .plain mark datum

def Entry.rename : Entry → Entry
  | .builtin runtime builtin => .builtin runtime builtin
  | .host name procedure => .host name procedure.rename
  | .custom closure body => .custom (r.scope closure) body.rename
  | .inert datum => .inert datum

def Procedure.rename : Procedure → Procedure
  | .constant result => .constant result.rename
  | .argumentCount => .argumentCount
  | .argument index => .argument index
  | .currentScope => .currentScope
  | .yieldTree => .yieldTree
  | .describeContext => .describeContext
  | .crash message => .crash message
  | .refuse kind message => .refuse kind message

end

def Context.rename (context : Context) : Context where
  scope := r.scope context.scope
  parameters := context.parameters.map (·.rename r)
  yielded := context.yielded.rename r
  returnScope := context.returnScope

def Invocation.rename (invocation : Invocation) : Invocation where
  builtin := invocation.builtin
  runtime := invocation.runtime
  context := invocation.context.rename r
  arguments := invocation.arguments.map (·.rename r)
  yielded := invocation.yielded.rename r

variable {r}

namespace Value

@[simp] theorem kindName_rename (value : Value) : (value.rename r).kindName = value.kindName := by
  cases value <;> rfl

@[simp] theorem holds_rename (value : Value) : (value.rename r).holds = value.holds := by
  cases value <;> rfl

@[simp] theorem writable_rename (value : Value) : (value.rename r).writable = value.writable := by
  cases value <;> rfl

@[simp] theorem same_rename (a b : Value) : (a.rename r).same (b.rename r) = a.same b := by
  cases a <;> cases b <;> rfl

end Value

@[simp] theorem Entry.kindName_rename (entry : Entry) :
    (entry.rename r).kindName = entry.kindName := by
  cases entry <;> simp [rename, kindName]

namespace Object

@[simp] theorem ofNode_rename (node : Node) : ofNode (node.rename r) = (ofNode node).rename r := by
  cases node <;> simp [ofNode, Node.rename, rename]

@[simp] theorem kindName_rename (object : Object) :
    (object.rename r).kindName = object.kindName := by
  cases object <;> simp [rename, kindName]

@[simp] theorem isNode_rename (object : Object) : (object.rename r).isNode = object.isNode := by
  cases object with
  | tree node => cases node <;> simp [rename, Node.rename, isNode]
  | _ => simp [rename, isNode]

@[simp] theorem value?_rename (object : Object) :
    (object.rename r).value? = object.value?.map (·.rename r) := by
  cases object <;> simp [rename, value?]

/-- Whether two objects are the same one does not depend on the names. -/
theorem identical_rename (a b : Object) :
    (a.rename r).identical (b.rename r) = a.identical b := by
  cases a with
  | scope i =>
      cases b with
      | scope j =>
          simp only [rename, identical]
          rw [Bool.eq_iff_iff, beq_iff_eq, beq_iff_eq]
          exact ⟨r.scope_injective, congrArg r.scope⟩
      | _ => simp [rename, identical]
  | tree x =>
      cases b with
      | tree y =>
          simp only [rename, identical, Node.mark?_rename]
          rw [Bool.eq_iff_iff, beq_iff_eq, beq_iff_eq]
          exact Option.map_inj_right fun _ _ => r.mark_injective
      | _ => simp [rename, identical]
  | _ => cases b <;> simp [rename, identical]

end Object

theorem Builtin.sameObject_rename (a b : Object) :
    sameObject (a.rename r) (b.rename r) = sameObject a b := by
  have identical := Object.identical_rename (r := r) a b
  cases a <;> cases b <;> simp_all [sameObject, Object.rename]

@[simp] theorem Layout.display_rename (object : Object) :
    Layout.display (object.rename r) = Layout.display object := by
  cases object with
  | value value => cases value <;> simp [Object.rename, Value.rename, display]
  | _ => simp [Object.rename, display]

mutual

theorem Layout.objectObstacle?_rename (room : Nat) (object : Object) :
    Layout.objectObstacle? room (object.rename r) = Layout.objectObstacle? room object := by
  cases object with
  | value value => cases value <;> rfl
  | tree node => simp [Object.rename, objectObstacle?]
  | function mark entry =>
      simp only [Object.rename, objectObstacle?]
      exact entryObstacle?_rename room entry
  | absent | scope | plain => simp [Object.rename, objectObstacle?]

theorem Layout.entryObstacle?_rename (room : Nat) (entry : Entry) :
    Layout.entryObstacle? room (entry.rename r) = Layout.entryObstacle? room entry := by
  cases entry with
  | custom closure body => simp only [Entry.rename, entryObstacle?, objectObstacle?_rename]
  | builtin | host | inert => simp [Entry.rename, entryObstacle?]

end

end TreeScript
