import Mathlib.Order.Bounds.Defs
import TreeScript.Proofs.ScopeChains

/-!
# The namespace of a path

A path is resolved by the longest part of it, from its beginning, that some scope along the parents
has for the name of a child. The nearest of these scopes decides which child it is, and from there
the rest of the path is followed in child tables alone. If a name is missing on that way, the path
has no namespace: no shorter part is tried.
-/

namespace TreeScript

/-! ### The segments of a path -/

theorem pathSegments.go_eq_splitOn (chars : List Char) :
    go chars = (chars.splitOn '.').map String.ofList := by
  induction chars with
  | nil => rfl
  | cons c rest ih =>
      rw [List.splitOn_cons_eq_if_modifyHead]
      unfold go
      split
      · contradiction
      · rename_i same
        cases same
        simp [ih]
      · rename_i plain same
        cases same
        have other : (c == '.') = false := beq_eq_false_iff_ne.mpr plain
        rw [if_neg (by simp [other]), ih]
        cases segments : rest.splitOn '.' with
        | nil => exact absurd segments (List.splitOnP_ne_nil _ rest)
        | cons first others => simp

/-- The segments of a path are what stands between its points, empty ones included. -/
theorem pathSegments_eq_splitOn (path : String) :
    pathSegments path = (path.toList.splitOn '.').map String.ofList :=
  pathSegments.go_eq_splitOn path.toList

namespace Heap

/-! ### Known parts of a path -/

/-- The first `count` segments, joined, are the name of a child of some scope along the parents. -/
def Knows (heap : Heap) (scope : ScopeId) (segments : List String) (count : Nat) : Prop :=
  0 < count ∧ count ≤ segments.length ∧
    ∃ id ∈ heap.chain scope, (heap.get id).children.has (joinSegments (segments.take count)) = true

instance (heap : Heap) (scope : ScopeId) (segments : List String) (count : Nat) :
    Decidable (heap.Knows scope segments count) :=
  inferInstanceAs (Decidable (_ ∧ _ ∧ ∃ id ∈ heap.chain scope, _ = true))

/-- The scope that is reached by following names, each in the child table of the scope before it. -/
def descend? (heap : Heap) (start : ScopeId) (names : List String) : Option ScopeId :=
  names.foldlM (fun scope name => (heap.get scope).children.find? name) start

variable {heap : Heap} {scope : ScopeId}

@[simp] theorem descend?_nil (start : ScopeId) : heap.descend? start [] = some start := rfl

theorem descend?_concat (start : ScopeId) (names : List String) (last : String) :
    heap.descend? start (names ++ [last]) =
      (heap.descend? start names).bind fun scope => (heap.get scope).children.find? last := by
  simp [descend?, List.foldlM_append]

/-- A name leads to a namespace if some scope of the chain has a child of that name. -/
theorem namespace?_isSome_iff {name : String} :
    (heap.namespace? scope name).isSome = true ↔
      ∃ id ∈ heap.chain scope, (heap.get id).children.has name = true := by
  simp [namespace?, Table.has, List.findSome?_isSome_iff]

theorem namespace?_eq_none_of_not_knows {segments : List String} {count : Nat}
    (unknown : ¬ heap.Knows scope segments count) (pos : 0 < count)
    (le : count ≤ segments.length) :
    heap.namespace? scope (joinSegments (segments.take count)) = none := by
  rw [← Option.not_isSome_iff_eq_none, namespace?_isSome_iff]
  exact fun known => unknown ⟨pos, le, known⟩

/-- Whether the first segments are known does not depend on those after them. -/
theorem knows_append_iff {segments : List String} {count : Nat} (le : count ≤ segments.length)
    (more : List String) :
    heap.Knows scope (segments ++ more) count ↔ heap.Knows scope segments count := by
  have longer : count ≤ (segments ++ more).length := Nat.le_trans le (by simp)
  simp only [Knows, le, longer, List.take_append_of_le_length le]

/-- A path is looked up as a whole, and then its last segment in the namespace of the others. -/
theorem findNamespace?_cons (last : String) (rest : List String) :
    heap.findNamespace? scope (last :: rest) =
      (heap.namespace? scope (joinSegments (rest.reverse ++ [last]))).or
        ((heap.findNamespace? scope rest).bind fun outer =>
          (heap.get outer).children.find? last) := by
  cases rest with
  | nil => simp [findNamespace?, joinSegments]
  | cons next others => simp [findNamespace?]

/-- A path of which no part is known has no namespace. -/
theorem findNamespace?_of_unknown {names : List String}
    (unknown : ∀ count, ¬ heap.Knows scope names.reverse count) :
    heap.findNamespace? scope names = none := by
  induction names with
  | nil => rfl
  | cons last rest ih =>
      rw [List.reverse_cons] at unknown
      have whole := namespace?_eq_none_of_not_knows (unknown (rest.length + 1)) (by simp) (by simp)
      rw [List.take_of_length_le (by simp)] at whole
      have shorter (count : Nat) : ¬ heap.Knows scope rest.reverse count := fun known =>
        unknown count ((knows_append_iff known.2.1 [last]).mpr known)
      rw [findNamespace?_cons, whole, ih shorter]
      rfl

/-- The rest of a path is followed from the namespace of its longest known part. -/
theorem findNamespace?_of_longest {names : List String} {count : Nat} {start : ScopeId}
    (known : heap.Knows scope names.reverse count)
    (found : heap.namespace? scope (joinSegments (names.reverse.take count)) = some start)
    (longest : ∀ other, heap.Knows scope names.reverse other → other ≤ count) :
    heap.findNamespace? scope names = heap.descend? start (names.reverse.drop count) := by
  induction names with
  | nil => exact absurd known.2.1 (Nat.not_le_of_lt known.1)
  | cons last rest ih =>
      rw [List.reverse_cons] at *
      have le := known.2.1
      rcases Nat.lt_or_eq_of_le le with shorter | whole
      · -- The path as a whole is not known, so its last segment is looked up in what is before it.
        have le' : count ≤ rest.reverse.length := by simp at shorter ⊢; omega
        have unknown : ¬ heap.Knows scope (rest.reverse ++ [last]) (rest.length + 1) := fun known =>
          Nat.not_lt_of_le (longest _ known) (by simpa using shorter)
        have missed := namespace?_eq_none_of_not_knows unknown (by simp) (by simp)
        rw [List.take_of_length_le (by simp)] at missed
        rw [List.take_append_of_le_length le'] at found
        rw [findNamespace?_cons, missed, Option.none_or,
          ih ((knows_append_iff le' [last]).mp known) found
            fun other known => longest other ((knows_append_iff known.2.1 [last]).mpr known),
          List.drop_append_of_le_length le', descend?_concat]
      · rw [List.take_of_length_le (Nat.le_of_eq whole.symm)] at found
        rw [findNamespace?_cons, found, List.drop_of_length_le (Nat.le_of_eq whole.symm)]
        rfl

/-- From a scope whose parents end, the namespace of a path is that of its longest known part,
followed by the rest of the path through child tables. Which child the longest known part means is
decided by the nearest scope that has one. A path with no known part has no namespace. -/
theorem resolveNamespace_longest {top : ScopeId} (climb : heap.Climb scope (heap.chain scope) top)
    (path : String) :
    let segments := (path.toList.splitOn '.').map String.ofList
    ((∀ count, ¬ heap.Knows scope segments count) → heap.resolveNamespace? scope path = none) ∧
      ∀ count, IsGreatest {count | heap.Knows scope segments count} count → ∃ start,
        heap.Search (heap.childHere? (joinSegments (segments.take count))) scope (some start) ∧
        heap.resolveNamespace? scope path = heap.descend? start (segments.drop count) := by
  intro segments
  have reversed : (pathSegments path).reverse.reverse = segments := by
    rw [List.reverse_reverse, pathSegments_eq_splitOn]
  constructor
  · intro unknown
    exact findNamespace?_of_unknown (by simpa only [reversed] using unknown)
  · intro count greatest
    obtain ⟨known, longest⟩ := greatest
    obtain ⟨start, found⟩ := Option.isSome_iff_exists.mp (namespace?_isSome_iff.mpr known.2.2)
    have nearest := climb.search (heap.childHere? (joinSegments (segments.take count)))
    refine ⟨start, found ▸ nearest, ?_⟩
    rw [← reversed] at known found longest ⊢
    exact findNamespace?_of_longest known found fun other known => longest known

/-- Scope 4 knows the path `a.b.c` as far as `a.b`. There is no `c` in that namespace, but there is
one in the `b` within `a`. -/
def overlapping : Heap :=
  ⟨#[{ children := [("a", 1), ("a.b", 2)] }, { children := [("b", 3)] }, {},
    { children := [("c", 2)] }, { parent := some 0 }]⟩

/-- The path that only the shorter part `a` leads through has no namespace. -/
theorem resolveNamespace_longest_overlapping :
    overlapping.descend? 1 ["b", "c"] = some 2 ∧
      overlapping.resolveNamespace? 4 "a.b.c" = none := by
  have climb : overlapping.Climb 4 (overlapping.chain 4) 0 := .up rfl (.top rfl)
  have known : overlapping.Knows 4 ["a", "b", "c"] 2 := by decide
  have unknown : ¬ overlapping.Knows 4 ["a", "b", "c"] 3 := by decide
  have greatest : IsGreatest {count | overlapping.Knows 4 ["a", "b", "c"] count} 2 := by
    refine ⟨known, fun count known => ?_⟩
    rcases Nat.lt_or_eq_of_le known.2.1 with shorter | whole
    · exact Nat.le_of_lt_succ shorter
    · cases whole
      exact absurd known unknown
  obtain ⟨start, found, followed⟩ := (resolveNamespace_longest climb "a.b.c").2 2 greatest
  have nearest : overlapping.Search (overlapping.childHere? "a.b") 4 (some 2) :=
    .up rfl rfl (.found rfl)
  obtain rfl := Option.some.inj (found.unique nearest)
  exact ⟨by decide, followed.trans rfl⟩

end Heap

end TreeScript
