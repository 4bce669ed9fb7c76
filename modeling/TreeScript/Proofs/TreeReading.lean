import TreeScript.Node.Reading

/-!
# Reading by parts

A list is read item by item. What a dictionary denotes depends on what stands under the keys that
say something about a node, and on the trees that this denotes by itself. Data that are part of no
loop are meant here: within a loop the parts are read with the loops around them at hand.
-/

namespace TreeScript.Node

@[simp] theorem read_null : read .null = .ok absent := by
  simp [read, readPart, readScalar]

theorem readAll_eq_mapM (items : List Data) : readAll [] items = items.mapM read := by
  induction items with
  | nil => rfl
  | cons item rest ih =>
      rw [List.mapM_cons, ← ih]
      rfl

theorem read_list (items : List Data) : read (.list items) = (items.mapM read).map (list 0) := by
  rw [← readAll_eq_mapM]
  rfl

/-! ### Lists within a node -/

@[simp] theorem trees_list (items : List Data) :
    Part.trees ⟨.list items, read (.list items)⟩ = items.mapM read := by
  rw [Part.trees, read_list]
  cases items.mapM read <;> rfl

/-- The arguments in a list are its items. -/
@[simp] theorem readParameters_list (items : List Data) :
    readParameters ⟨.list items, read (.list items)⟩ = items.mapM read := by
  cases items with
  | nil => rfl
  | cons item rest => exact trees_list (item :: rest)

/-- The statements in a list are its items. -/
@[simp] theorem readBody_list (tag : Data) (items : List Data) :
    readBody tag ⟨.list items, read (.list items)⟩ = items.mapM read := by
  cases items with
  | nil => rfl
  | cons item rest => exact trees_list (item :: rest)

/-! ### Dictionaries -/

/-- What stands under a key, with the tree that it denotes by itself. -/
def partUnder? (entries : List (Data × Data)) (key : String) : Option Part :=
  (Data.lookup? key entries).map fun datum => ⟨datum, read datum⟩

/-- Where nothing stands under a key, it is as if null did. -/
@[simp] theorem getD_partUnder? (entries : List (Data × Data)) (key : String) :
    (partUnder? entries key).getD .none =
      ⟨Data.lookup key entries, read (Data.lookup key entries)⟩ := by
  unfold partUnder? Data.lookup
  cases Data.lookup? key entries with
  | none => simp [Part.none]
  | some datum => rfl

@[simp] theorem datum_getD_partUnder? (entries : List (Data × Data)) (key : String) (part : Part) :
    ((partUnder? entries key).getD part).datum = (Data.lookup? key entries).getD part.datum := by
  unfold partUnder?
  cases Data.lookup? key entries <;> rfl

@[simp] theorem elim_partUnder? (entries : List (Data × Data)) (key : String) (datum : Data) :
    ((partUnder? entries key).elim datum fun part => part.datum) =
      (Data.lookup? key entries).getD datum := by
  unfold partUnder?
  cases Data.lookup? key entries <;> rfl

theorem isPartKey_of_sameKey {key : String} {datum : Data} (known : key ∈ partKeys)
    (same : datum.sameKey (.text key) = true) : isPartKey datum = true :=
  List.any_eq_true.mpr ⟨key, known, same⟩

/-- Only the keys that say something about a node are looked for. -/
theorem findPart?_readParts {key : String} (known : key ∈ partKeys)
    (entries : List (Data × Data)) :
    findPart? (readParts [] entries) key = partUnder? entries key := by
  induction entries with
  | nil => rfl
  | cons entry rest ih =>
      obtain ⟨other, datum⟩ := entry
      unfold findPart? partUnder? Data.lookup? at ih ⊢
      simp only [readParts, Data.standalone_of_no_loops]
      cases same : other.sameKey (.text key) with
      | true => simp [isPartKey_of_sameKey known same, same, read]
      | false => split <;> simpa [same] using ih

theorem assemble_congr {whole : Data} {part? other? : String → Option Part}
    (same : ∀ key ∈ partKeys, part? key = other? key) :
    assemble whole part? = assemble whole other? := by
  have known (key : String) (h : key ∈ partKeys := by simp [partKeys]) :
      part? key = other? key := same key h
  simp only [assemble, assemble.importNode, known "type", known "value", known "name",
    known "parameters", known "yieldFunction", known "body", known "line", known "col"]

/-- A dictionary denotes what its parts make up. -/
theorem read_dict (entries : List (Data × Data)) :
    read (.dict entries) = assemble (.dict entries) (partUnder? entries) :=
  assemble_congr fun _ known => findPart?_readParts known entries

/-! ### Dictionaries denote nodes -/

/-- If there is a result, then it is neither missing nor a list. -/
def GivesNode (result : Except Fault Node) : Prop :=
  ∀ node, result = .ok node → node.origin?.isSome = true

theorem givesNode_error (fault : Fault) : GivesNode (.error fault) := by
  rintro node ⟨⟩

theorem givesNode_pure {node : Node} (located : node.origin?.isSome = true) :
    GivesNode (pure node) := by
  rintro _ ⟨⟩
  exact located

theorem givesNode_bind {α : Type} {result : Except Fault α} {f : α → Except Fault Node}
    (each : ∀ a, GivesNode (f a)) : GivesNode (result >>= f) := by
  cases result with
  | error fault => exact givesNode_error fault
  | ok a => exact each a

theorem givesNode_importNode (part? : String → Option Part) (tag : String)
    (origin : String → Origin) : GivesNode (assemble.importNode part? tag origin) := by
  unfold assemble.importNode
  dsimp only
  split
  · exact givesNode_bind fun _ => givesNode_pure rfl
  · exact givesNode_error _

theorem givesNode_assemble (whole : Data) (part? : String → Option Part) :
    GivesNode (assemble whole part?) := by
  have one {α : Type} {result : Except Fault α} {f : α → Node}
      (located : ∀ a, (f a).origin?.isSome = true) : GivesNode (do return f (← result)) :=
    givesNode_bind fun a => givesNode_pure (located a)
  unfold assemble
  dsimp only
  split
  next => exact givesNode_error _
  next => exact one fun _ => rfl
  next => exact one fun _ => rfl
  next => exact one fun _ => rfl
  next => exact givesNode_bind fun _ => one fun _ => rfl
  next =>
    exact givesNode_bind fun _ => givesNode_bind fun _ => givesNode_bind fun _ => one fun _ => rfl
  next => exact one fun _ => rfl
  next => exact one fun _ => rfl
  next => exact one fun _ => rfl
  next => exact givesNode_importNode _ _ _
  next => exact givesNode_importNode _ _ _
  next => exact givesNode_error _

theorem origin?_of_read_dict {entries : List (Data × Data)} {node : Node}
    (reads : read (.dict entries) = .ok node) : node.origin?.isSome = true :=
  givesNode_assemble _ _ node (read_dict entries ▸ reads)

end TreeScript.Node
