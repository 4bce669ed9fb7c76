import TreeScript.Data

/-!
# Parts of loops

A part of a loop may refer to the loops around it, so it has no meaning by itself. It gets one when
the loops that it refers to are put in place of the references; within them it is itself referred
to, if it is a loop too. `standalone_of_no_loops` is the case without loops around the part.
-/

namespace TreeScript.Data

mutual

/-- The datum as a part of loops with the given names: where it holds one of them it refers to
it. -/
def within (names : List Nat) : Data → Data
  | loop name collection =>
      if names.contains name then again name collection.isDict
      else loop name (collection.within names)
  | list items => list (withinItems names items)
  | dict entries => dict (withinEntries names entries)
  | datum => datum

def withinItems (names : List Nat) : List Data → List Data
  | [] => []
  | item :: rest => item.within names :: withinItems names rest

def withinEntries (names : List Nat) : List (Data × Data) → List (Data × Data)
  | [] => []
  | (key, value) :: rest => (key, value.within names) :: withinEntries names rest

end

mutual

/-- A datum that is part of no loop stays as it is. -/
theorem within_nil : (datum : Data) → datum.within [] = datum
  | loop _ collection => by simp [within, within_nil collection]
  | list items => by simp [within, withinItems_nil items]
  | dict entries => by simp [within, withinEntries_nil entries]
  | null | bool _ | int _ | real _ | text _ | again _ _ => by simp [within]

theorem withinItems_nil : (items : List Data) → withinItems [] items = items
  | [] => rfl
  | item :: rest => by simp [withinItems, within_nil item, withinItems_nil rest]

theorem withinEntries_nil : (entries : List (Data × Data)) → withinEntries [] entries = entries
  | [] => rfl
  | (_, value) :: rest => by simp [withinEntries, within_nil value, withinEntries_nil rest]

end

mutual

/-- The datum with the loops around it in place of the references to them. The names are those of
the loops that have been entered since. -/
def filled (outer : List (Nat × Data)) (names : List Nat) : Data → Data
  | loop name collection => loop name (collection.filled outer (name :: names))
  | again name isDict =>
      if names.contains name then again name isDict
      else match outer.lookup name with
        | some whole => whole.within names
        | none => again name isDict
  | list items => list (filledItems outer names items)
  | dict entries => dict (filledEntries outer names entries)
  | datum => datum

/-- The items with the loops around them in place of the references to them. -/
def filledItems (outer : List (Nat × Data)) (names : List Nat) : List Data → List Data
  | [] => []
  | item :: rest => item.filled outer names :: filledItems outer names rest

/-- The entries with the loops around them in place of the references to them. -/
def filledEntries (outer : List (Nat × Data)) (names : List Nat) :
    List (Data × Data) → List (Data × Data)
  | [] => []
  | (key, value) :: rest => (key, value.filled outer names) :: filledEntries outer names rest

end

def standalone (outer : List (Nat × Data)) (datum : Data) : Data :=
  if outer.isEmpty then datum else datum.filled outer []

/-- A datum that is part of no loop stands by itself already. -/
@[simp] theorem standalone_of_no_loops (datum : Data) : datum.standalone [] = datum := rfl

end TreeScript.Data
