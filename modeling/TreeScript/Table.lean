/-!
# Ordered tables

A table maps names to values and remembers the order in which the names first arrived. Giving a
present name a new value moves nothing; a name that was erased and arrives again goes to the end.
-/

namespace TreeScript

/-- Entries in order of arrival, no name twice. -/
abbrev Table (α : Type) := List (String × α)

namespace Table

variable {α : Type}

def find? (name : String) : Table α → Option α
  | [] => none
  | (key, value) :: rest => if key = name then some value else find? name rest

def insert (name : String) (value : α) : Table α → Table α
  | [] => [(name, value)]
  | (key, old) :: rest =>
      if key = name then (key, value) :: rest else (key, old) :: insert name value rest

def erase (name : String) (table : Table α) : Table α :=
  table.filter fun entry => entry.1 != name

def names (table : Table α) : List String := table.map (·.1)

def has (name : String) (table : Table α) : Bool := (find? name table).isSome

@[simp] theorem find?_insert_self (name : String) (value : α) (table : Table α) :
    find? name (insert name value table) = some value := by
  induction table with
  | nil => simp [insert, find?]
  | cons entry rest ih =>
      by_cases h : entry.1 = name
      · simp [insert, find?, h]
      · simp [insert, find?, h, ih]

theorem find?_insert_of_ne {name other : String} (value : α) (table : Table α)
    (h : other ≠ name) : find? other (insert name value table) = find? other table := by
  induction table with
  | nil => simp [insert, find?, Ne.symm h]
  | cons entry rest ih =>
      obtain ⟨key, old⟩ := entry
      by_cases hk : key = name
      · subst hk
        simp [insert, find?, Ne.symm h]
      · simp [insert, find?, hk, ih]

theorem mem_of_find? {name : String} {value : α} {table : Table α}
    (h : find? name table = some value) : (name, value) ∈ table := by
  induction table with
  | nil => simp [find?] at h
  | cons entry rest ih =>
      obtain ⟨key, old⟩ := entry
      by_cases same : key = name
      · simp [find?, same] at h
        simp [same, h]
      · simp only [find?, same, if_false] at h
        exact List.mem_cons_of_mem _ (ih h)

theorem has_iff_mem_names {name : String} {table : Table α} :
    has name table = true ↔ name ∈ names table := by
  induction table with
  | nil => simp [has, find?, names]
  | cons entry rest ih =>
      by_cases h : entry.1 = name
      · simp [has, find?, names, h]
      · simp only [has, names] at ih
        simp [has, find?, names, h, Ne.symm h, ih]

theorem has_insert {name other : String} {value : α} {table : Table α} :
    has other (insert name value table) = true ↔ other = name ∨ has other table = true := by
  by_cases same : other = name
  · simp [has, same]
  · simp [has, find?_insert_of_ne value table same, same]

/-- Nothing but the given value is new in the table. -/
theorem mem_insert {name : String} {value : α} {table : Table α}
    {entry : String × α} (h : entry ∈ insert name value table) :
    entry.2 = value ∨ entry ∈ table := by
  induction table with
  | nil => exact .inl (by simp_all [insert])
  | cons first rest ih =>
      simp only [insert] at h
      split at h
      · rcases List.mem_cons.mp h with rfl | old
        · exact .inl rfl
        · exact .inr (List.mem_cons_of_mem _ old)
      · rcases List.mem_cons.mp h with rfl | old
        · exact .inr (List.mem_cons_self ..)
        · exact (ih old).imp_right (List.mem_cons_of_mem _)

/-- A new name goes to the end and a present one stays where it is. -/
theorem names_insert (name : String) (value : α) (table : Table α) :
    names (insert name value table) =
      if has name table then names table else names table ++ [name] := by
  induction table with
  | nil => rfl
  | cons entry rest ih =>
      obtain ⟨key, old⟩ := entry
      by_cases hk : key = name
      · simp [insert, names, has, find?, hk]
      · simp only [names, has] at ih
        simp only [insert, hk, if_false, names, List.map_cons, has, find?, ih]
        by_cases hf : (find? name rest).isSome = true <;> simp [hf]

theorem names_prefix_insert (name : String) (value : α) (table : Table α) :
    names table <+: names (insert name value table) := by
  rw [names_insert]
  split
  · exact List.prefix_rfl
  · exact List.prefix_append _ _

end Table

end TreeScript
