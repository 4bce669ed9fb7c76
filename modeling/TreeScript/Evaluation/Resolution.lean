import TreeScript.Evaluation.Error
import TreeScript.Heap

/-!
# What a name refers to

A name is first looked up as it is, in the scope and its parents. If no scope binds it and it has a
point in it, the part before the last point names a namespace, whose own table must have the part
after it. A namespace is the child scope of the longest part of its path that is known in the scope
or its parents; from there the rest of the path is followed in the child tables alone.
-/

namespace TreeScript

def pathSegments (path : String) : List String :=
  go path.toList
where
  go : List Char → List String
    | [] => [""]
    | '.' :: rest => "" :: go rest
    | c :: rest => match go rest with
      | [] => [c.toString]
      | segment :: segments => (c.toString ++ segment) :: segments

def joinSegments (segments : List String) : String := ".".intercalate segments

namespace pathSegments

theorem go_ne_nil (chars : List Char) : go chars ≠ [] := by
  unfold go
  split
  · simp
  · simp
  · split <;> simp

theorem joinSegments_go (chars : List Char) : joinSegments (go chars) = String.ofList chars := by
  induction chars with
  | nil => rfl
  | cons c rest ih =>
      unfold go
      split
      · contradiction
      · rename_i same
        cases same
        rw [joinSegments, String.intercalate_cons_of_ne_nil (go_ne_nil rest), ← joinSegments, ih]
        simp
      · rename_i same
        cases same
        split
        · rename_i none
          exact absurd none (go_ne_nil rest)
        · rename_i segment segments found
          rw [joinSegments, String.intercalate_cons_append, ← joinSegments, ← found, ih]
          simp

theorem go_of_not_mem {chars : List Char} (h : '.' ∉ chars) : go chars = [String.ofList chars] := by
  induction chars with
  | nil => rfl
  | cons c rest ih =>
      obtain ⟨first, others⟩ := List.ne_and_not_mem_of_not_mem_cons h
      unfold go
      split
      · contradiction
      · rename_i same
        cases same
        contradiction
      · rename_i same
        cases same
        simp [ih others]

theorem go_append (chars : List Char) {member : List Char} (h : '.' ∉ member) :
    go (chars ++ '.' :: member) = go chars ++ [String.ofList member] := by
  induction chars with
  | nil => simp [go, go_of_not_mem h]
  | cons c rest ih =>
      by_cases point : c = '.'
      · subst point
        simp [go, ih]
      · rw [List.cons_append]
        unfold go
        cases found : go rest with
        | nil => exact absurd found (go_ne_nil rest)
        | cons segment segments => simp [ih, found]

end pathSegments

/-- A path is put together from its parts again. -/
@[simp] theorem joinSegments_pathSegments (path : String) :
    joinSegments (pathSegments path) = path := by
  simp [pathSegments, pathSegments.joinSegments_go]

theorem pathSegments_member (path : String) {member : String} (h : '.' ∉ member.toList) :
    pathSegments (path ++ "." ++ member) = pathSegments path ++ [member] := by
  have chars : (path ++ "." ++ member).toList = path.toList ++ '.' :: member.toList := by simp
  rw [pathSegments, chars, pathSegments.go_append _ h, String.ofList_toList]
  rfl

namespace Heap

/-- The namespace whose path has the given segments, the last of which comes first. -/
def findNamespace? (heap : Heap) (scope : ScopeId) : List String → Option ScopeId
  | [] => none
  | [name] => heap.namespace? scope name
  | last :: rest =>
      (heap.namespace? scope (joinSegments (last :: rest).reverse)).or
        ((heap.findNamespace? scope rest).bind fun outer => (heap.get outer).children.find? last)

def resolveNamespace? (heap : Heap) (scope : ScopeId) (path : String) : Option ScopeId :=
  heap.findNamespace? scope (pathSegments path).reverse

/-- The entry that a name refers to in a scope. -/
def resolve (heap : Heap) (scope : ScopeId) (name : String) : Except Cause Entry :=
  match heap.function? scope name with
  | some entry => .ok entry
  | none => match (pathSegments name).reverse with
    | member :: last :: rest =>
        match heap.findNamespace? scope (last :: rest) with
        | none => .error (.unknownNamespace (joinSegments (last :: rest).reverse))
        | some space => match (heap.get space).functions.find? member with
          | some entry => .ok entry
          | none => .error (.unknownFunction name)
    | _ => .error (.unknownFunction name)

/-- What a name refers to is bound in some scope. -/
theorem exists_find_of_resolve {heap : Heap} {scope : ScopeId} {name : String} {entry : Entry}
    (h : heap.resolve scope name = .ok entry) :
    ∃ owner key, (heap.get owner).functions.find? key = some entry := by
  unfold resolve at h
  split at h
  · rename_i found
    cases h
    obtain ⟨owner, -, found⟩ := Option.bind_eq_some_iff.mp found
    exact ⟨owner, name, found⟩
  · split at h
    · split at h
      · cases h
      · split at h
        · rename_i found
          cases h
          exact ⟨_, _, found⟩
        · cases h
    · cases h

/-- A name without a point leads nowhere else than to what it is bound to. -/
theorem resolve_eq_ok_iff {heap : Heap} {scope : ScopeId} {name : String} {entry : Entry}
    (plain : '.' ∉ name.toList) :
    heap.resolve scope name = .ok entry ↔ heap.function? scope name = some entry := by
  have segments : pathSegments name = [name] := by
    rw [pathSegments, pathSegments.go_of_not_mem plain, String.ofList_toList]
  rw [resolve, segments]
  cases heap.function? scope name with
  | none => simp
  | some found => simp

/-- A path that is known as a whole is the name of a namespace. -/
theorem resolveNamespace?_of_namespace? {heap : Heap} {scope space : ScopeId} {path : String}
    (known : heap.namespace? scope path = some space) :
    heap.resolveNamespace? scope path = some space := by
  have joined : joinSegments (pathSegments path).reverse.reverse = path := by simp
  unfold resolveNamespace?
  unfold findNamespace?
  split
  · rename_i none
    exact absurd (List.reverse_eq_nil_iff.mp none) (pathSegments.go_ne_nil _)
  · rename_i name only
    rw [only] at joined
    rwa [← joined] at known
  · rename_i segments
    rw [← segments, joined, known]
    rfl

/-- A dotted name that no scope of the chain binds is looked for in the namespace of its path. -/
theorem resolve_dotted {heap : Heap} {scope : ScopeId} {path member : String}
    (plain : '.' ∉ member.toList)
    (free : heap.function? scope (path ++ "." ++ member) = none) :
    heap.resolve scope (path ++ "." ++ member) =
      match heap.resolveNamespace? scope path with
      | none => .error (.unknownNamespace path)
      | some space => match (heap.get space).functions.find? member with
        | some entry => .ok entry
        | none => .error (.unknownFunction (path ++ "." ++ member)) := by
  simp only [resolve, free, resolveNamespace?, pathSegments_member path plain, List.reverse_append,
    List.reverse_singleton, List.singleton_append]
  cases segments : (pathSegments path).reverse with
  | nil => exact absurd (List.reverse_eq_nil_iff.mp segments) (pathSegments.go_ne_nil _)
  | cons last rest =>
      have joined : joinSegments (last :: rest).reverse = path := by simp [← segments]
      simp only [joined]

/-- A member of a namespace whose path is known as a whole is looked for in its own table. -/
theorem resolve_member {heap : Heap} {scope space : ScopeId} {path member : String}
    (known : heap.namespace? scope path = some space) (plain : '.' ∉ member.toList)
    (free : heap.function? scope (path ++ "." ++ member) = none) :
    heap.resolve scope (path ++ "." ++ member) =
      match (heap.get space).functions.find? member with
      | some entry => .ok entry
      | none => .error (.unknownFunction (path ++ "." ++ member)) := by
  rw [resolve_dotted plain free, resolveNamespace?_of_namespace? known]

end Heap

end TreeScript
