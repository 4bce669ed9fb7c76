import TreeScript.Proofs.TreeReading

/-!
# Which data denote trees

The data that denote trees are told by a grammar: null, lists of such data, and dictionaries whose
tag and parts go together. Data as they are in a JSON text denote a tree exactly if they are in that
grammar, and a program exactly if they are a list or a dictionary besides. All others are refused
for a wrong value, for a value of a wrong kind or for a missing key.
-/

namespace TreeScript

namespace Data

/-- Data as they are in a JSON text: the keys of dictionaries are texts, no integer has too many
digits, and nothing holds itself. -/
inductive IsJson : Data → Prop
  | null : IsJson .null
  | bool (b : Bool) : IsJson (.bool b)
  | int {i : Int} : Numeral.writable i = true → IsJson (.int i)
  | real (x : Float) : IsJson (.real x)
  | text (s : String) : IsJson (.text s)
  | list {items : List Data} : (∀ item ∈ items, IsJson item) → IsJson (.list items)
  | dict {entries : List (Data × Data)} : (∀ entry ∈ entries, ∃ key, entry.1 = .text key) →
      (∀ entry ∈ entries, IsJson entry.2) → IsJson (.dict entries)

/-! ### The grammar -/

/-- A text with a point or an exponent mark is the text of a double. -/
def IsRealText (text : List Char) : Prop := '.' ∈ text ∨ 'e' ∈ text ∨ 'E' ∈ text

/-- The data that are the value of a number literal. -/
inductive DenotesNumber : Data → Prop
  | int (i : Int) : DenotesNumber (.int i)
  | real (x : Float) : DenotesNumber (.real x)
  | integerText {s : String} {i : Int} : ¬ IsRealText (Text.trim s.toList) →
      Numeral.readInteger (Text.trim s.toList) = .ok i → DenotesNumber (.text s)
  | realText {s : String} {x : Float} : IsRealText (Text.trim s.toList) →
      Numeral.readReal? (Text.trim s.toList) = some x → DenotesNumber (.text s)

/-- The data that are the value of a boolean literal. -/
inductive DenotesBoolean : Data → Prop
  | bool (b : Bool) : DenotesBoolean (.bool b)
  | true : DenotesBoolean (.text "true")
  | false : DenotesBoolean (.text "false")

/-- The datum is a list, or it does not hold and stands for an empty one. -/
def Listed (datum : Data) : Prop := datum.holds = false ∨ ∃ items, datum = .list items

def items : Data → List Data
  | .list items => items
  | _ => []

/-- The data that denote trees. Where nothing stands under a key, it is as if null did, apart from
the value of a variable, the name of a call and the name of an import. -/
inductive DenotesTree : Data → Prop
  | null : DenotesTree .null
  | list {items : List Data} : (∀ item ∈ items, DenotesTree item) → DenotesTree (.list items)
  | number {entries : List (Data × Data)} : lookup "type" entries = .text "NumberLiteral" →
      (lookup "value" entries).DenotesNumber → DenotesTree (.dict entries)
  | text {entries : List (Data × Data)} : lookup "type" entries = .text "StringLiteral" →
      DenotesTree (.dict entries)
  | boolean {entries : List (Data × Data)} : lookup "type" entries = .text "BooleanLiteral" →
      (lookup "value" entries).DenotesBoolean → DenotesTree (.dict entries)
  | memory {entries : List (Data × Data)} {value : Data} :
      lookup "type" entries = .text "MemoryLiteral" → lookup? "value" entries = some value →
      DenotesTree (.dict entries)
  | call {entries : List (Data × Data)} {name : Data} :
      lookup "type" entries = .text "FunctionCall" → lookup? "name" entries = some name →
      (lookup "parameters" entries).Listed →
      (∀ item ∈ (lookup "parameters" entries).items, DenotesTree item) →
      DenotesTree (lookup "yieldFunction" entries) → DenotesTree (.dict entries)
  | body {entries : List (Data × Data)} {tag : String} :
      tag ∈ ["Block", "Program", "ParameterBlock"] → lookup "type" entries = .text tag →
      (lookup "body" entries).Listed →
      (∀ item ∈ (lookup "body" entries).items, DenotesTree item) → DenotesTree (.dict entries)
  | moduleImport {entries : List (Data × Data)} {tag : String} :
      tag ∈ ["ModuleImport", "NeedOperator"] → lookup "type" entries = .text tag →
      ((lookup? "name" entries).getD (lookup "value" entries)).holds = true →
      DenotesTree (.dict entries)

/-- A datum under which a list of trees stands. -/
def DenotesTrees (datum : Data) : Prop :=
  datum.Listed ∧ ∀ item ∈ datum.items, item.DenotesTree

theorem denotesTree_list_iff {items : List Data} :
    (Data.list items).DenotesTree ↔ ∀ item ∈ items, item.DenotesTree := by
  constructor
  · rintro ⟨⟩
    assumption
  · exact .list

/-- What the grammar asks of a dictionary with a tag. -/
theorem denotesTree_dict_iff (entries : List (Data × Data)) :
    (Data.dict entries).DenotesTree ↔ match lookup "type" entries with
      | .text "NumberLiteral" => (lookup "value" entries).DenotesNumber
      | .text "StringLiteral" => True
      | .text "BooleanLiteral" => (lookup "value" entries).DenotesBoolean
      | .text "MemoryLiteral" => ∃ value, lookup? "value" entries = some value
      | .text "FunctionCall" => (∃ name, lookup? "name" entries = some name) ∧
          (lookup "parameters" entries).DenotesTrees ∧ (lookup "yieldFunction" entries).DenotesTree
      | .text "Block" | .text "Program" | .text "ParameterBlock" =>
          (lookup "body" entries).DenotesTrees
      | .text "ModuleImport" | .text "NeedOperator" =>
          ((lookup? "name" entries).getD (lookup "value" entries)).holds = true
      | _ => False := by
  constructor
  · intro denotes
    cases denotes with
    | number tag value => simpa [tag] using value
    | text tag => simp [tag]
    | boolean tag value => simpa [tag] using value
    | memory tag value => simp [tag, value]
    | call tag name listed items yielded =>
        simp [tag, name]
        exact ⟨⟨listed, items⟩, yielded⟩
    | body known tag listed items =>
        simp at known
        rcases known with rfl | rfl | rfl <;> simp [tag] <;> exact ⟨listed, items⟩
    | moduleImport known tag name =>
        simp at known
        rcases known with rfl | rfl <;> simp [tag, name]
  · intro asked
    split at asked
    next tag => exact .number tag asked
    next tag => exact .text tag
    next tag => exact .boolean tag asked
    next tag => exact .memory tag asked.choose_spec
    next tag =>
      obtain ⟨⟨name, named⟩, ⟨listed, items⟩, yielded⟩ := asked
      exact .call tag named listed items yielded
    next tag => exact .body (by simp) tag asked.1 asked.2
    next tag => exact .body (by simp) tag asked.1 asked.2
    next tag => exact .body (by simp) tag asked.1 asked.2
    next tag => exact .moduleImport (by simp) tag asked
    next tag => exact .moduleImport (by simp) tag asked
    next => exact asked.elim

/-- What stands under a key is in the dictionary. -/
theorem mem_of_lookup? {key : String} {entries : List (Data × Data)} {datum : Data}
    (found : lookup? key entries = some datum) : ∃ entry ∈ entries, entry.2 = datum := by
  obtain ⟨entry, first, eq⟩ := Option.map_eq_some_iff.mp found
  exact ⟨entry, List.mem_of_find?_eq_some first, eq⟩

/-! ### Data of JSON texts -/

theorem writableItems_iff (items : List Data) :
    writableItems items = true ↔ ∀ item ∈ items, item.writable = true := by
  induction items with
  | nil => simp [writableItems]
  | cons item rest ih => simp [writableItems, ih]

theorem writableEntries_iff (entries : List (Data × Data)) :
    writableEntries entries = true ↔
      ∀ entry ∈ entries, entry.1.writable = true ∧ entry.2.writable = true := by
  induction entries with
  | nil => simp [writableEntries]
  | cons entry rest ih => simp [writableEntries, ih, and_assoc]

theorem IsJson.writable {datum : Data} (json : datum.IsJson) : datum.writable = true := by
  induction json with
  | null | bool _ | real _ | text _ => rfl
  | int within => exact within
  | list _ ih => exact (writableItems_iff _).mpr ih
  | dict keys _ ih =>
      refine (writableEntries_iff _).mpr fun entry mem => ⟨?_, ih entry mem⟩
      obtain ⟨key, eq⟩ := keys entry mem
      rw [eq]
      rfl

theorem IsJson.lookup? {entries : List (Data × Data)} (json : (Data.dict entries).IsJson)
    {key : String} {datum : Data} (found : lookup? key entries = some datum) : datum.IsJson := by
  obtain ⟨entry, mem, rfl⟩ := mem_of_lookup? found
  cases json with
  | dict _ values => exact values entry mem

theorem IsJson.getD {entries : List (Data × Data)} (json : (Data.dict entries).IsJson)
    (key : String) {other : Data} (otherwise : other.IsJson) :
    ((Data.lookup? key entries).getD other).IsJson := by
  cases found : Data.lookup? key entries with
  | none => exact otherwise
  | some datum => exact json.lookup? found

theorem IsJson.lookup {entries : List (Data × Data)} (json : (Data.dict entries).IsJson)
    (key : String) : (lookup key entries).IsJson := json.getD key .null

end Data

namespace Node

open Data

/-! ### Sorts of faults -/

/-- A value is wrong, a datum is of a wrong kind, or a key is missing. -/
inductive Fault.Sort where
  | wrongValue
  | wrongKind
  | missingKey
deriving Repr, DecidableEq

/-- The sort of a fault. Data that never end are of none. -/
def Fault.sort? : Fault → Option Fault.Sort
  | invalidNumber _ | invalidBoolean _ | bodyNotList _ | unnamedImport | untagged _ | unknownTag _
  | empty | unwritable => some .wrongValue
  | unexpected _ | notIterable _ => some .wrongKind
  | missing _ => some .missingKey
  | endless => none

/-! ### Readings that decide a condition -/

/-- The reading gives a result if the condition holds, and otherwise it is refused for a fault of
one of the sorts. -/
def Decides {α : Type} (condition : Prop) (result : Except Fault α) : Prop :=
  match result with
  | .ok _ => condition
  | .error fault => ¬ condition ∧ fault.sort? ≠ none

section

variable {α β : Type} {P Q : Prop}

theorem Decides.iff {result : Except Fault α} (decides : Decides P result) :
    (∃ a, result = .ok a) ↔ P := by
  cases result with
  | ok a => exact iff_of_true ⟨a, rfl⟩ decides
  | error fault => exact iff_of_false (by simp) decides.1

theorem Decides.sorted {result : Except Fault α} (decides : Decides P result) {fault : Fault}
    (refused : result = .error fault) : fault.sort? ≠ none := by
  subst refused
  exact decides.2

theorem Decides.congr {result : Except Fault α} (decides : Decides P result) (same : P ↔ Q) :
    Decides Q result := propext same ▸ decides

theorem decides_ok (a : α) (holds : P) : Decides P (.ok a : Except Fault α) := holds

theorem decides_refuse {fault : Fault} (fails : ¬ P) (sorted : fault.sort? ≠ none) :
    Decides P (refuse fault : Except Fault α) := by
  refine ⟨fails, ?_⟩
  split
  · exact sorted
  · simp [Fault.sort?]

theorem Decides.bind {result : Except Fault α} {f : α → Except Fault β} (first : Decides P result)
    (second : ∀ a, result = .ok a → Decides Q (f a)) : Decides (P ∧ Q) (result >>= f) := by
  cases result with
  | error fault => exact ⟨fun both => first.1 both.1, first.2⟩
  | ok a => exact (second a rfl).congr ⟨fun q => ⟨first, q⟩, And.right⟩

/-- What is made of a result cannot be refused. -/
theorem Decides.map {result : Except Fault α} (decides : Decides P result) (f : α → β) :
    Decides P (do return f (← result)) :=
  (decides.bind fun a _ => decides_ok (P := True) (f a) trivial).congr (and_iff_left trivial)

theorem decides_map_iff {result : Except Fault α} {f : α → β} :
    Decides P (result.map f) ↔ Decides P result := by
  cases result <;> rfl

end

theorem decides_mapM {P : Data → Prop} {f : Data → Except Fault Node} {items : List Data}
    (each : ∀ item ∈ items, Decides (P item) (f item)) :
    Decides (∀ item ∈ items, P item) (items.mapM f) := by
  induction items with
  | nil => exact decides_ok [] (by simp)
  | cons item rest ih =>
      rw [List.mapM_cons]
      refine ((each item (by simp)).bind fun _ _ =>
        (ih fun other mem => each other (by simp [mem])).map _).congr ?_
      simp

/-! ### The parts of a dictionary -/

theorem decides_readScalar (datum : Data) : Decides (datum = .null) (readScalar datum) := by
  cases datum with
  | null => exact decides_ok absent rfl
  | _ => exact decides_refuse (by simp) (by simp [Fault.sort?])

/-- Texts denote no trees, so some of them are refused. -/
theorem decides_texts {P : Prop} {elements : List Data}
    (texts : ∀ item ∈ elements, ∃ s, item = .text s) (some : elements ≠ []) (fails : ¬ P) :
    Decides P (elements.mapM readScalar) := by
  have refused : ¬ ∀ item ∈ elements, item = .null := by
    intro all
    obtain ⟨first, mem⟩ := List.exists_mem_of_ne_nil _ some
    obtain ⟨s, text⟩ := texts first mem
    cases text.symm.trans (all first mem)
  exact (decides_mapM fun item _ => decides_readScalar item).congr (iff_of_false refused fails)

theorem decides_displayText {datum : Data} (json : datum.IsJson) :
    Decides True (displayText datum) := by
  rw [displayText, if_pos json.writable]
  trivial

theorem decides_readNumber (datum : Data) : Decides datum.DenotesNumber (readNumber datum) := by
  have wrong (fails : ¬ datum.DenotesNumber) :
      Decides datum.DenotesNumber (refuse (.invalidNumber datum) : Except Fault Number) :=
    decides_refuse fails (by simp [Fault.sort?])
  cases datum with
  | int i => exact .int i
  | real x => exact .real x
  | text s =>
      have marked : ((Text.trim s.toList).contains '.' || (Text.trim s.toList).contains 'e' ||
          (Text.trim s.toList).contains 'E') = true ↔ IsRealText (Text.trim s.toList) := by
        simp [IsRealText, or_assoc]
      rw [readNumber]
      by_cases real : IsRealText (Text.trim s.toList)
      · rw [if_pos (marked.mpr real)]
        cases found : Numeral.readReal? (Text.trim s.toList) with
        | some x => exact .realText real found
        | none =>
            refine wrong ?_
            rintro (_ | _ | ⟨integer, -⟩ | ⟨-, other⟩)
            · exact integer real
            · simp [found] at other
      · rw [if_neg (mt marked.mp real)]
        cases found : Numeral.readInteger (Text.trim s.toList) with
        | ok i => exact .integerText real found
        | error fault =>
            refine wrong ?_
            rintro (_ | _ | ⟨-, other⟩ | ⟨mark, -⟩)
            · simp [found] at other
            · exact real mark
  | _ => exact wrong (by rintro ⟨⟩)

theorem decides_readBoolean (datum : Data) : Decides datum.DenotesBoolean (readBoolean datum) := by
  unfold readBoolean
  split
  · exact .bool _
  · exact .true
  · exact .false
  · refine decides_refuse ?_ (by simp [Fault.sort?])
    rintro ⟨⟩ <;> simp_all

theorem decides_partUnder? (entries : List (Data × Data)) (key : String) :
    Decides (∃ datum, lookup? key entries = some datum)
      ((partUnder? entries key).elim (.error (.missing key)) .ok) := by
  unfold partUnder?
  cases lookup? key entries with
  | none => exact ⟨by simp, by simp [Fault.sort?]⟩
  | some datum => exact decides_ok _ ⟨datum, rfl⟩

/-- What does not hold and is no list stands for no trees. -/
theorem denotesTrees_of_not_holds {datum : Data} (fails : datum.holds = false) :
    datum.DenotesTrees := by
  refine ⟨.inl fails, ?_⟩
  cases datum with
  | list items =>
      obtain rfl : items = [] := by simpa [holds] using fails
      simp [items]
  | _ => simp [items]

theorem not_denotesTrees {datum : Data} (holds : datum.holds = true)
    (other : ∀ items, datum ≠ .list items) : ¬ datum.DenotesTrees := by
  rintro ⟨fails | ⟨items, eq⟩, -⟩
  · simp [fails] at holds
  · exact other items eq

section

variable {datum : Data}

theorem denotesTrees_list_iff {items : List Data} :
    (Data.list items).DenotesTrees ↔ (Data.list items).DenotesTree :=
  ⟨fun trees => .list trees.2, fun tree => ⟨.inr ⟨items, rfl⟩, denotesTree_list_iff.mp tree⟩⟩

theorem decides_items {items : List Data}
    (tree : Decides (Data.list items).DenotesTree (read (.list items))) :
    Decides (Data.list items).DenotesTrees (items.mapM read) := by
  rw [read_list, decides_map_iff] at tree
  exact tree.congr denotesTrees_list_iff.symm

theorem decides_readBody (json : datum.IsJson) (tree : Decides datum.DenotesTree (read datum))
    (tag : Data) : Decides datum.DenotesTrees (readBody tag ⟨datum, read datum⟩) := by
  cases held : datum.holds with
  | false =>
      rw [readBody, held]
      exact denotesTrees_of_not_holds held
  | true =>
      have wrong (other : ∀ items, datum ≠ .list items) :
          Decides datum.DenotesTrees (refuse (.bodyNotList tag) : Except Fault (List Node)) :=
        decides_refuse (not_denotesTrees held other) (by simp [Fault.sort?])
      cases json with
      | list _ =>
          rw [readBody_list]
          exact decides_items tree
      | _ =>
          rw [readBody, held]
          exact wrong (by simp)

/-- The characters of a text and the keys of a dictionary denote no trees, as they are texts. -/
theorem decides_readParameters (json : datum.IsJson)
    (tree : Decides datum.DenotesTree (read datum)) :
    Decides datum.DenotesTrees (readParameters ⟨datum, read datum⟩) := by
  cases held : datum.holds with
  | false =>
      rw [readParameters, held]
      exact denotesTrees_of_not_holds held
  | true =>
      have wrong {kind : String} (other : ∀ items, datum ≠ .list items) :
          Decides datum.DenotesTrees (.error (.notIterable kind) : Except Fault (List Node)) :=
        ⟨not_denotesTrees held other, by simp [Fault.sort?]⟩
      cases json with
      | list _ =>
          rw [readParameters_list]
          exact decides_items tree
      | text s =>
          rw [readParameters, held]
          refine decides_texts ?_ ?_ (not_denotesTrees held (by simp))
          · simp
          · simpa [holds] using held
      | @dict entries keys _ =>
          rw [readParameters, held]
          refine decides_texts ?_ ?_ (not_denotesTrees held (by simp))
          · rintro item mem
            obtain ⟨entry, inside, rfl⟩ := List.mem_map.mp mem
            exact keys entry inside
          · simpa [holds] using held
      | null | bool _ | int _ | real _ =>
          rw [readParameters, held]
          exact wrong (by simp)

end

/-! ### The whole -/

section

variable {entries : List (Data × Data)}

/-- What stands under a key can be shown. -/
theorem decides_displayPart (json : (Data.dict entries).IsJson) {key : String} {part : Part}
    (found : (partUnder? entries key).elim (Except.error (Fault.missing key)) .ok = .ok part) :
    Decides True (displayText part.datum) := by
  unfold partUnder? at found
  cases under : lookup? key entries with
  | none =>
      rw [under] at found
      cases found
  | some datum =>
      rw [under] at found
      cases found
      exact decides_displayText (json.lookup? under)

theorem decides_importNode (json : (Data.dict entries).IsJson) (tag : String)
    (origin : String → Origin) :
    Decides (((lookup? "name" entries).getD (lookup "value" entries)).holds = true)
      (assemble.importNode (partUnder? entries) tag origin) := by
  have named := json.getD "name" (json.lookup "value")
  simp only [assemble.importNode, Option.getD_or, datum_getD_partUnder?, getD_partUnder?]
  split
  · rename_i holds
    exact ((decides_displayText named).map _).congr (iff_of_true trivial holds)
  · rename_i fails
    exact ⟨fails, by simp [Fault.sort?]⟩

/-- A dictionary denotes a tree as the grammar says, if whatever stands in it does. -/
theorem decides_read_dict (json : (Data.dict entries).IsJson)
    (each : ∀ entry ∈ entries, Decides entry.2.DenotesTree (read entry.2)) :
    Decides (Data.dict entries).DenotesTree (read (.dict entries)) := by
  have under (key : String) :
      Decides (lookup key entries).DenotesTree (read (lookup key entries)) := by
    unfold lookup
    cases found : lookup? key entries with
    | none => exact decides_ok absent .null
    | some datum =>
        obtain ⟨entry, mem, rfl⟩ := mem_of_lookup? found
        exact each entry mem
  have shown {key : String} {part : Part} (found :
      (partUnder? entries key).elim (.error (Fault.missing key)) Except.ok = .ok part) :=
    decides_displayPart json found
  have body (tag : Data) := decides_readBody (json.lookup "body") (under "body") tag
  have asked := denotesTree_dict_iff entries
  rw [read_dict]
  simp only [assemble, getD_partUnder?, elim_partUnder?]
  split
  next tag => exact decides_refuse (by simp [asked, tag]) (by simp [Fault.sort?])
  next tag => exact ((decides_readNumber _).map _).congr (by simp [asked, tag])
  next tag =>
    have value := decides_displayText (json.getD "value" (.text ""))
    exact (value.map _).congr (by simp [asked, tag])
  next tag => exact ((decides_readBoolean _).map _).congr (by simp [asked, tag])
  next tag =>
    have value := decides_partUnder? entries "value"
    exact (value.bind fun _ found => (shown found).map _).congr (by simp [asked, tag])
  next tag =>
    have name := decides_partUnder? entries "name"
    have parameters :=
      decides_readParameters (json.lookup "parameters") (under "parameters")
    exact (name.bind fun _ found => (shown found).bind fun _ _ => parameters.bind fun _ _ =>
      (under "yieldFunction").map _).congr (by simp [asked, tag])
  next tag => exact ((body _).map _).congr (by simp [asked, tag])
  next tag => exact ((body _).map _).congr (by simp [asked, tag])
  next tag => exact ((body _).map _).congr (by simp [asked, tag])
  next tag => exact (decides_importNode json _ _).congr (by simp [asked, tag])
  next tag => exact (decides_importNode json _ _).congr (by simp [asked, tag])
  next =>
    refine decides_refuse (fun denotes => ?_) (by simp [Fault.sort?])
    have known := asked.mp denotes
    split at known <;> simp_all

end

/-- Every datum of a JSON text denotes a tree exactly as the grammar says. -/
theorem decides_read {datum : Data} (json : datum.IsJson) :
    Decides datum.DenotesTree (read datum) := by
  induction json with
  | null => exact .null
  | list _ ih =>
      rw [read_list, decides_map_iff]
      exact (decides_mapM ih).congr denotesTree_list_iff.symm
  | dict keys values ih => exact decides_read_dict (.dict keys values) ih
  | bool _ | int _ | real _ | text _ =>
      exact decides_refuse (by rintro ⟨⟩) (by simp [Fault.sort?])

theorem decides_readProgram {datum : Data} (json : datum.IsJson) :
    Decides (datum.DenotesTree ∧
      ((∃ items, datum = .list items) ∨ ∃ entries, datum = .dict entries))
      (readProgram datum) := by
  refine (decides_read json).bind fun node reads => ?_
  cases json with
  | null =>
      rw [read_null] at reads
      cases reads
      exact ⟨by simp, by simp [Fault.sort?]⟩
  | @list items _ =>
      rw [read_list] at reads
      cases found : items.mapM read with
      | error fault =>
          rw [found] at reads
          cases reads
      | ok nodes =>
          rw [found] at reads
          cases reads
          exact decides_ok _ (.inl ⟨items, rfl⟩)
  | @dict entries keys values =>
      have isNode := origin?_of_read_dict reads
      cases node with
      | absent | list _ _ => cases isNode
      | _ => exact decides_ok _ (.inr ⟨entries, rfl⟩)
  | bool _ | int _ | real _ | text _ => cases reads

/-- A datum of a JSON text denotes a tree exactly if it is in the grammar, and a program exactly if
it is a list or a dictionary besides. Whatever is refused has a fault of one of the sorts. -/
theorem read_grammar {datum : Data} (json : datum.IsJson) :
    ((∃ node, read datum = .ok node) ↔ datum.DenotesTree) ∧
    ((∃ program, readProgram datum = .ok program) ↔ datum.DenotesTree ∧
      ((∃ items, datum = .list items) ∨ ∃ entries, datum = .dict entries)) ∧
    ∀ fault, read datum = .error fault ∨ readProgram datum = .error fault →
      fault.sort? ≠ none := by
  have tree := decides_read json
  have program := decides_readProgram json
  refine ⟨tree.iff, program.iff, ?_⟩
  rintro fault (refused | refused)
  · exact tree.sorted refused
  · exact program.sorted refused

/-- A call of a number, with a missing argument and the text of an integer. -/
def numberedCall : Data :=
  .dict [(.text "name", .int 5), (.text "type", .text "FunctionCall"),
    (.text "parameters", .list [.null,
      .dict [(.text "value", .text " -1_0 "), (.text "type", .text "NumberLiteral")]])]

/-- The call is in the grammar, so it denotes a tree and a program. -/
theorem read_grammar_numberedCall :
    numberedCall.IsJson ∧ numberedCall.DenotesTree ∧ (∃ node, read numberedCall = .ok node) ∧
      ∃ program, readProgram numberedCall = .ok program := by
  have within : Numeral.writable 5 = true := by decide +kernel
  have json : numberedCall.IsJson := by
    refine .dict (by simp) ?_
    simp only [List.forall_mem_cons, List.not_mem_nil, false_implies, implies_true, and_true]
    refine ⟨.int within, .text _, .list ?_⟩
    simp only [List.forall_mem_cons, List.not_mem_nil, false_implies, implies_true, and_true]
    exact ⟨.null, .dict (by simp) (by simp [Data.IsJson.text])⟩
  have integer : Data.DenotesNumber (.text " -1_0 ") :=
    .integerText (i := -10) (by simp [Data.IsRealText]; decide) rfl
  have denotes : numberedCall.DenotesTree := by
    refine @Data.DenotesTree.call _ (.int 5) rfl rfl (.inr ⟨_, rfl⟩) ?_ .null
    intro item mem
    change item ∈ [Data.null, .dict [_, _]] at mem
    simp only [List.mem_cons, List.not_mem_nil, or_false] at mem
    obtain rfl | rfl := mem
    · exact .null
    · exact .number rfl integer
  obtain ⟨tree, program, -⟩ := read_grammar json
  exact ⟨json, denotes, tree.mpr denotes, program.mpr ⟨denotes, .inr ⟨_, rfl⟩⟩⟩

end Node

end TreeScript
