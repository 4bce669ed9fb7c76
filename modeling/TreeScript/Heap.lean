import TreeScript.Table
import TreeScript.Value

/-!
# Scopes

A scope has a table of functions, a table of child scopes, the value that its block returns, and
perhaps a parent. All scopes live in one heap, which only grows: a scope is known by its place, and
its parent was there before it. A name is looked up in the scope itself and then from parent to
parent; the nearest scope that has it wins.
-/

namespace TreeScript

/-- A lexical environment. -/
structure Scope where
  functions : Table Entry := []
  children : Table ScopeId := []
  returned : Object := .absent
  parent : Option ScopeId := none

/-- All scopes, in the order of their creation. -/
structure Heap where
  scopes : Array Scope := #[]

namespace Heap

def get (heap : Heap) (id : ScopeId) : Scope := heap.scopes.getD id {}

def alloc (heap : Heap) (scope : Scope) : ScopeId × Heap :=
  (heap.scopes.size, ⟨heap.scopes.push scope⟩)

def modify (heap : Heap) (id : ScopeId) (change : Scope → Scope) : Heap :=
  ⟨heap.scopes.setIfInBounds id (change (heap.get id))⟩

def bind (heap : Heap) (id : ScopeId) (name : String) (entry : Entry) : Heap :=
  heap.modify id fun scope => { scope with functions := scope.functions.insert name entry }

def unbind (heap : Heap) (id : ScopeId) (name : String) : Heap :=
  heap.modify id fun scope => { scope with functions := scope.functions.erase name }

/-- Makes a scope a child of another under a name. -/
def attach (heap : Heap) (id : ScopeId) (name : String) (child : ScopeId) : Heap :=
  heap.modify id fun scope => { scope with children := scope.children.insert name child }

def setReturned (heap : Heap) (id : ScopeId) (returned : Object) : Heap :=
  heap.modify id fun scope => { scope with returned }

/-- At most `count` scopes from a scope upward along the parents. -/
def chainUpTo (heap : Heap) : Nat → ScopeId → List ScopeId
  | 0, _ => []
  | count + 1, id => id :: match (heap.get id).parent with
    | none => []
    | some parent => heap.chainUpTo count parent

/-- A scope and its parents, the nearest first. Parents lie at earlier places, so their number is
bounded by the place of the scope. -/
def chain (heap : Heap) (id : ScopeId) : List ScopeId := heap.chainUpTo (id + 1) id

def hasLocal (heap : Heap) (id : ScopeId) (name : String) : Bool :=
  (heap.get id).functions.has name

/-- The nearest scope that binds the name. -/
def owner? (heap : Heap) (id : ScopeId) (name : String) : Option ScopeId :=
  (heap.chain id).find? (heap.hasLocal · name)

/-- What the name is bound to in the nearest scope that binds it. -/
def function? (heap : Heap) (id : ScopeId) (name : String) : Option Entry :=
  (heap.owner? id name).bind fun owner => (heap.get owner).functions.find? name

/-- The child scope of that name in the nearest scope that has one. -/
def namespace? (heap : Heap) (id : ScopeId) (name : String) : Option ScopeId :=
  (heap.chain id).findSome? fun scope => (heap.get scope).children.find? name

def isBound (heap : Heap) (slot : Slot) : Bool := heap.hasLocal slot.scope slot.name

/-! ### What the operations do to each scope -/

theorem get_of_size_le (heap : Heap) {id : ScopeId} (h : heap.scopes.size ≤ id) :
    heap.get id = {} := by
  simp [get, Nat.not_lt_of_le h]

theorem lt_of_hasLocal {heap : Heap} {id : ScopeId} {name : String}
    (bound : heap.hasLocal id name = true) : id < heap.scopes.size := by
  rcases Nat.lt_or_ge id heap.scopes.size with inside | outside
  · exact inside
  · have nothing : heap.get id = {} := heap.get_of_size_le outside
    simp [hasLocal, nothing, Table.has, Table.find?] at bound

theorem lt_of_parent {heap : Heap} {id parent : ScopeId}
    (found : (heap.get id).parent = some parent) : id < heap.scopes.size := by
  rcases Nat.lt_or_ge id heap.scopes.size with inside | outside
  · exact inside
  · have nothing : heap.get id = {} := heap.get_of_size_le outside
    simp [nothing] at found

theorem get_modify_self (heap : Heap) (id : ScopeId) (change : Scope → Scope)
    (h : id < heap.scopes.size) : (heap.modify id change).get id = change (heap.get id) := by
  simp [get, modify, h]

theorem get_modify_of_ne (heap : Heap) {id other : ScopeId} (change : Scope → Scope)
    (h : other ≠ id) : (heap.modify id change).get other = heap.get other := by
  simp [get, modify, Ne.symm h]

theorem get_alloc (heap : Heap) (scope : Scope) (id : ScopeId) :
    (heap.alloc scope).2.get id = if id = heap.scopes.size then scope else heap.get id := by
  simp only [get, alloc, Array.getD_eq_getD_getElem?, Array.getElem?_push]
  split <;> rfl

theorem get_alloc_of_lt (heap : Heap) (scope : Scope) {id : ScopeId}
    (h : id < heap.scopes.size) : (heap.alloc scope).2.get id = heap.get id := by
  simp [get, alloc, Array.getElem?_push, Nat.ne_of_lt h]

theorem get_alloc_self (heap : Heap) (scope : Scope) :
    (heap.alloc scope).2.get (heap.alloc scope).1 = scope := by
  simp [get, alloc]

@[simp] theorem size_alloc (heap : Heap) (scope : Scope) :
    (heap.alloc scope).2.scopes.size = heap.scopes.size + 1 := by
  simp [alloc]

/-- A change to a scope moves no scope and adds none. -/
@[simp] theorem size_modify (heap : Heap) (id : ScopeId) (change : Scope → Scope) :
    (heap.modify id change).scopes.size = heap.scopes.size := by
  simp [modify]

/-- What a change leaves alone is the same in every scope. -/
theorem view_modify {β : Type} (view : Scope → β) (heap : Heap) (id : ScopeId)
    {change : Scope → Scope} (h : ∀ scope, view (change scope) = view scope) (other : ScopeId) :
    view ((heap.modify id change).get other) = view (heap.get other) := by
  by_cases same : other = id
  · subst same
    by_cases inside : other < heap.scopes.size
    · rw [get_modify_self heap other change inside, h]
    · simp [get, modify, inside]
  · rw [get_modify_of_ne heap change same]

theorem chain_congr {heap heap' : Heap}
    (h : ∀ id, (heap'.get id).parent = (heap.get id).parent) (id : ScopeId) :
    heap'.chain id = heap.chain id := by
  unfold chain
  generalize id + 1 = count
  induction count generalizing id with
  | zero => rfl
  | succ count ih => simp only [chainUpTo, h, ih]

@[simp] theorem chain_attach (heap : Heap) (id : ScopeId) (name : String) (child scope : ScopeId) :
    (heap.attach id name child).chain scope = heap.chain scope :=
  chain_congr (fun other => by
    rw [attach, view_modify Scope.parent heap id]
    exact fun _ => rfl) scope

theorem isBound_bind (heap : Heap) (slot other : Slot) (entry : Entry)
    (h : other.scope < heap.scopes.size) :
    (heap.bind slot.scope slot.name entry).isBound other = true ↔
      other = slot ∨ heap.isBound other = true := by
  obtain ⟨scope, name⟩ := slot
  obtain ⟨id, label⟩ := other
  by_cases same : id = scope
  · subst same
    simp [isBound, hasLocal, bind, get_modify_self heap id _ h, Table.has_insert]
  · simp [isBound, hasLocal, bind, get_modify_of_ne heap _ same, same]

end Heap

end TreeScript
