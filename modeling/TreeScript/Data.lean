import TreeScript.Number
import TreeScript.Text.Quoted

/-!
# Plain data

Documents are decoded into plain data before they are given a meaning: null, booleans, numbers,
texts, lists and dictionaries. A dictionary keeps its entries in the order in which their keys
first arrived, and a later value for a key takes the place of the earlier one.

A list or a dictionary may hold itself. It is then a named loop, and inside it a reference by that
name stands for it. No loop has the name of a loop around it.
-/

namespace TreeScript

/-- A decoded document or a part of one. -/
inductive Data where
  | null
  | bool (value : Bool)
  | int (value : Int)
  | real (value : Float)
  | text (value : String)
  | list (items : List Data)
  | dict (entries : List (Data × Data))
  /-- A list or a dictionary that holds itself or a part of which holds it. -/
  | loop (name : Nat) (collection : Data)
  /-- The loop of that name around it. -/
  | again (name : Nat) (isDict : Bool)

namespace Data

/-- The number that a datum is; a boolean counts as zero or one. -/
def number? : Data → Option Number
  | bool b => some (.int b.toNat)
  | int i => some (.int i)
  | real x => some (.real x)
  | _ => none

/-- Two scalars are the same key when they are equal. Numbers and booleans are equal by value, and
what is no number is the same key as itself. -/
def sameKey : Data → Data → Bool
  | null, null => true
  | text a, text b => a == b
  | a, b => match a.number?, b.number? with
    | some m, some n => m.same n || m.isNaN && n.isNaN
    | _, _ => false

def insertEntry (key value : Data) : List (Data × Data) → List (Data × Data)
  | [] => [(key, value)]
  | (k, v) :: rest =>
      if k.sameKey key then (k, value) :: rest else (k, v) :: insertEntry key value rest

def dictOf (entries : List (Data × Data)) : Data :=
  dict (entries.foldl (fun sofar entry => insertEntry entry.1 entry.2 sofar) [])

def lookup? (name : String) (entries : List (Data × Data)) : Option Data :=
  (entries.find? fun entry => entry.1.sameKey (text name)).map (·.2)

def lookup (name : String) (entries : List (Data × Data)) : Data :=
  (lookup? name entries).getD null

/-- Null, false, zero and whatever is empty do not hold. -/
def holds : Data → Bool
  | null => false
  | bool b => b
  | int i => i != 0
  | real x => !(x == 0)
  | text s => !s.isEmpty
  | list items => !items.isEmpty
  | dict entries => !entries.isEmpty
  | loop _ collection => collection.holds
  | again .. => true

def isDict : Data → Bool
  | dict _ => true
  | loop _ collection => collection.isDict
  | again _ isDict => isDict
  | _ => false

/-- The list or dictionary that a loop is; any other datum is itself. -/
def bare : Data → Data
  | loop _ collection => collection
  | datum => datum

def kindName : Data → String
  | null => "NoneType"
  | bool _ => "bool"
  | int _ => "int"
  | real _ => "float"
  | text _ => "str"
  | list _ => "list"
  | dict _ => "dict"
  | loop _ collection => collection.kindName
  | again _ isDict => if isDict then "dict" else "list"

def quotedText (s : String) : String := String.ofList (Text.quoted s.toList)

mutual

/-- The written form of a datum, in which texts are quoted. Dots stand for a list or a dictionary
inside itself. -/
def written : Data → String
  | null => "None"
  | bool b => if b then "True" else "False"
  | int i => Numeral.integerText i
  | real x => Numeral.realText x
  | text s => quotedText s
  | list items => "[" ++ ", ".intercalate (writtenItems items) ++ "]"
  | dict entries => "\x7b" ++ ", ".intercalate (writtenEntries entries) ++ "\x7d"
  | loop _ collection => collection.written
  | again _ isDict => if isDict then "\x7b...\x7d" else "[...]"

def writtenItems : List Data → List String
  | [] => []
  | item :: rest => item.written :: writtenItems rest

def writtenEntries : List (Data × Data) → List String
  | [] => []
  | (key, value) :: rest => (key.written ++ ": " ++ value.written) :: writtenEntries rest

end

/-- The text of a datum: a text is itself, all else is in written form. -/
def display : Data → String
  | text s => s
  | datum => datum.written

mutual

/-- Every integer in the datum is within the digit limit. -/
def writable : Data → Bool
  | int i => Numeral.writable i
  | list items => writableItems items
  | dict entries => writableEntries entries
  | loop _ collection => collection.writable
  | _ => true

def writableItems : List Data → Bool
  | [] => true
  | item :: rest => item.writable && writableItems rest

def writableEntries : List (Data × Data) → Bool
  | [] => true
  | (key, value) :: rest => key.writable && value.writable && writableEntries rest

end

mutual

/-- Equality of data: numbers and booleans by value, dictionaries without regard to order. A loop
equals nothing. -/
def same : Data → Data → Bool
  | list xs, ys => match ys with
    | list ys => sameItems xs ys
    | _ => false
  | dict xs, ys => match ys with
    | dict ys => xs.length == ys.length && entriesWithin xs ys
    | _ => false
  | null, null => true
  | text a, text b => a == b
  | a, b => match a.number?, b.number? with
    | some m, some n => m.same n
    | _, _ => false

def sameItems : List Data → List Data → Bool
  | [], [] => true
  | x :: xs, y :: ys => x.same y && sameItems xs ys
  | _, _ => false

def entriesWithin : List (Data × Data) → List (Data × Data) → Bool
  | [], _ => true
  | (key, value) :: rest, others =>
      (match others.find? fun other => other.1.sameKey key with
        | some other => value.same other.2
        | none => false) && entriesWithin rest others

end

/-- Two equal data of which there is only one: booleans, integers from -5 to 256, the empty text,
and texts of one character up to U+00FF. -/
def isShared : Data → Data → Bool
  | bool a, bool b => a == b
  | int a, int b => a == b && -5 ≤ a && a ≤ 256
  | text a, text b => a == b && match a.toList with
    | [] => true
    | [c] => c.toNat ≤ 0xFF
    | _ => false
  | _, _ => false

/-- The keys that a dictionary has after an insertion: a new one goes to the end. -/
theorem keys_insertEntry (key value : Data) (entries : List (Data × Data)) :
    (insertEntry key value entries).map (·.1) =
      if entries.any (fun entry => entry.1.sameKey key) then entries.map (·.1)
      else entries.map (·.1) ++ [key] := by
  induction entries with
  | nil => rfl
  | cons entry rest ih =>
      obtain ⟨k, v⟩ := entry
      by_cases h : k.sameKey key = true
      · simp [insertEntry, h]
      · simp only [insertEntry, h, Bool.false_eq_true, if_false, List.map_cons, ih, List.any_cons,
          Bool.false_or]
        split <;> simp

end Data

end TreeScript
