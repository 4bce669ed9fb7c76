import TreeScript.Proofs.TreeReading

/-!
# Canonical documents

Every tree has a canonical document. A list is a list of the documents of its items, a missing tree
is null, and a node is a dictionary with its tag, its parts, and its line and column if these are
known. Reading that document gives the tree back with everything but its marks, of which a document
says nothing. An import may also be written under its older tag, which it is then located by.
-/

namespace TreeScript

/-- The datum that a number is. -/
def Number.datum : Number → Data
  | .int i => .int i
  | .real x => .real x

/-! ### Locations -/

namespace Origin

/-- The entries of a dictionary that tell the location of its node. -/
def entries (origin : Origin) : List (Data × Data) :=
  match origin.location with
  | none => []
  | some location => [(.text "line", location.line), (.text "col", location.column)]

/-- If a location is known, then it has a line, a column and the tag. -/
def Fits (tag : String) (origin : Origin) : Prop :=
  ∀ location, origin.location = some location →
    location.line ≠ .null ∧ location.column ≠ .null ∧ location.tag = tag

def unmarked (origin : Origin) : Origin := { origin with mark := 0 }

/-- The origin with another tag in its location. -/
def retagged (tag : String) (origin : Origin) : Origin :=
  { origin with location := origin.location.map fun location => { location with tag } }

theorem Fits.retagged {tag : String} {origin : Origin} (fits : origin.Fits tag) (other : String) :
    (origin.retagged other).Fits other := by
  intro location found
  obtain ⟨old, known, rfl⟩ := Option.map_eq_some_iff.mp found
  obtain ⟨line, column, -⟩ := fits old known
  exact ⟨line, column, rfl⟩

@[simp] theorem entries_retagged (tag : String) (origin : Origin) :
    (origin.retagged tag).entries = origin.entries := by
  unfold entries retagged
  cases origin.location <;> rfl

/-- The entries of a location stand under no other key. -/
theorem lookup?_entries (origin : Origin) {key : String} (line : key ≠ "line")
    (column : key ≠ "col") : Data.lookup? key origin.entries = none := by
  unfold entries
  cases origin.location with
  | none => rfl
  | some location => simp [Data.lookup?, Data.sameKey, line.symm, column.symm]

/-- What the entries tell is the location. -/
theorem readOrigin_entries {tag : String} {origin : Origin} (fits : origin.Fits tag) :
    Node.readOrigin tag (Data.lookup "line" origin.entries) (Data.lookup "col" origin.entries) =
      origin.unmarked := by
  obtain ⟨known, mark⟩ := origin
  cases known with
  | none => rfl
  | some location =>
      obtain ⟨line, column, tag'⟩ := location
      obtain ⟨hasLine, hasColumn, rfl⟩ := fits _ rfl
      have found : Data.lookup "line" (entries ⟨some ⟨line, column, tag'⟩, mark⟩) = line ∧
          Data.lookup "col" (entries ⟨some ⟨line, column, tag'⟩, mark⟩) = column := by
        simp [entries, Data.lookup, Data.lookup?, Data.sameKey]
      rw [found.1, found.2, Node.readOrigin]
      · rfl
      · exact hasLine
      · exact hasColumn

end Origin

/-! ### Documents -/

/-- A dictionary with a tag and some parts, located as a node is. -/
def Data.tagged (tag : String) (parts : List (String × Data)) (origin : Origin) : Data :=
  .dict ((.text "type", .text tag) :: parts.map (fun part => (.text part.1, part.2)) ++
    origin.entries)

namespace Data

@[simp] theorem lookup?_cons_text (key name : String) (datum : Data)
    (rest : List (Data × Data)) :
    lookup? key ((.text name, datum) :: rest) =
      if name = key then some datum else lookup? key rest := by
  by_cases same : name = key <;> simp [lookup?, sameKey, same]

@[simp] theorem lookup_cons_text (key name : String) (datum : Data) (rest : List (Data × Data)) :
    lookup key ((.text name, datum) :: rest) = if name = key then datum else lookup key rest := by
  unfold lookup
  rw [lookup?_cons_text]
  split <;> rfl

end Data

namespace Node

section

/- The imports that are written under their older tag. -/
variable (older : String → Origin → Bool)

mutual

/-- The canonical document of a tree. -/
def document : Node → Data
  | absent => .null
  | list _ items => .list (documents items)
  | number n origin => .tagged "NumberLiteral" [("value", n.datum)] origin
  | text s origin => .tagged "StringLiteral" [("value", .text s)] origin
  | boolean b origin => .tagged "BooleanLiteral" [("value", .bool b)] origin
  | memory name origin => .tagged "MemoryLiteral" [("value", .text name)] origin
  | call name parameters yielded origin =>
      .tagged "FunctionCall" [("name", .text name), ("parameters", .list (documents parameters)),
        ("yieldFunction", document yielded)] origin
  | block body origin => .tagged "Block" [("body", .list (documents body))] origin
  | program body origin => .tagged "Program" [("body", .list (documents body))] origin
  | group body origin => .tagged "ParameterBlock" [("body", .list (documents body))] origin
  | moduleImport name origin =>
      if older name origin then .tagged "NeedOperator" [("value", .text name)] origin
      else .tagged "ModuleImport" [("name", .text name)] origin

def documents : List Node → List Data
  | [] => []
  | node :: rest => document node :: documents rest

end

mutual

/-- The tree in which the imports are located by the tag that they are written under. -/
def respelled : Node → Node
  | list mark items => list mark (respelledAll items)
  | call name parameters yielded origin =>
      call name (respelledAll parameters) (respelled yielded) origin
  | block body origin => block (respelledAll body) origin
  | program body origin => program (respelledAll body) origin
  | group body origin => group (respelledAll body) origin
  | moduleImport name origin =>
      moduleImport name (if older name origin then origin.retagged "NeedOperator" else origin)
  | node => node

def respelledAll : List Node → List Node
  | [] => []
  | node :: rest => respelled node :: respelledAll rest

end

end

mutual

/-- The tree without the marks of its nodes and lists. -/
def unmarked : Node → Node
  | absent => absent
  | list _ items => list 0 (unmarkedAll items)
  | number n origin => number n origin.unmarked
  | text s origin => text s origin.unmarked
  | boolean b origin => boolean b origin.unmarked
  | memory name origin => memory name origin.unmarked
  | call name parameters yielded origin =>
      call name (unmarkedAll parameters) (unmarked yielded) origin.unmarked
  | block body origin => block (unmarkedAll body) origin.unmarked
  | program body origin => program (unmarkedAll body) origin.unmarked
  | group body origin => group (unmarkedAll body) origin.unmarked
  | moduleImport name origin => moduleImport name origin.unmarked

def unmarkedAll : List Node → List Node
  | [] => []
  | node :: rest => unmarked node :: unmarkedAll rest

end

mutual

/-- Nothing but its marks is missing: once they are given, the tree is what it was. -/
theorem mark_unmarked (next : Nat) (node : Node) : node.unmarked.mark next = node.mark next := by
  match node with
  | list _ items => simp only [unmarked, mark, markAll_unmarkedAll (next + 1) items]
  | call _ parameters yielded _ =>
      simp only [unmarked, mark, markAll_unmarkedAll (next + 1) parameters,
        mark_unmarked (markAll (next + 1) parameters).2 yielded, Origin.unmarked]
  | block body _ | program body _ | group body _ =>
      simp only [unmarked, mark, markAll_unmarkedAll (next + 1) body, Origin.unmarked]
  | absent | number .. | text .. | boolean .. | memory .. | moduleImport .. => rfl

theorem markAll_unmarkedAll (next : Nat) (nodes : List Node) :
    markAll next (unmarkedAll nodes) = markAll next nodes := by
  match nodes with
  | [] => rfl
  | node :: rest =>
      simp only [unmarkedAll, markAll, mark_unmarked next node,
        markAll_unmarkedAll (node.mark next).2 rest]

end

mutual

theorem respelled_never (node : Node) : node.respelled (fun _ _ => false) = node := by
  match node with
  | list _ items => simp only [respelled, respelledAll_never items]
  | call _ parameters yielded _ =>
      simp only [respelled, respelledAll_never parameters, respelled_never yielded]
  | block body _ | program body _ | group body _ => simp only [respelled, respelledAll_never body]
  | moduleImport .. => simp [respelled]
  | absent | number .. | text .. | boolean .. | memory .. => rfl

theorem respelledAll_never (nodes : List Node) :
    respelledAll (fun _ _ => false) nodes = nodes := by
  match nodes with
  | [] => rfl
  | node :: rest => simp only [respelledAll, respelled_never node, respelledAll_never rest]

end

mutual

/-- Every location in the tree has a line, a column and the tag of its node, and every import has a
name. -/
def Canonical : Node → Prop
  | absent => True
  | list _ items => AllCanonical items
  | number _ origin => origin.Fits "NumberLiteral"
  | text _ origin => origin.Fits "StringLiteral"
  | boolean _ origin => origin.Fits "BooleanLiteral"
  | memory _ origin => origin.Fits "MemoryLiteral"
  | call _ parameters yielded origin =>
      origin.Fits "FunctionCall" ∧ AllCanonical parameters ∧ Canonical yielded
  | block body origin => origin.Fits "Block" ∧ AllCanonical body
  | program body origin => origin.Fits "Program" ∧ AllCanonical body
  | group body origin => origin.Fits "ParameterBlock" ∧ AllCanonical body
  | moduleImport name origin => origin.Fits "ModuleImport" ∧ name ≠ ""

def AllCanonical : List Node → Prop
  | [] => True
  | node :: rest => Canonical node ∧ AllCanonical rest

end

/-! ### Reading them back -/

@[simp] theorem ok_bind {α β : Type} (a : α) (f : α → Except Fault β) :
    (Except.ok a >>= f) = f a := rfl

@[simp] theorem pure_eq_ok {α : Type} (a : α) : (pure a : Except Fault α) = .ok a := rfl

@[simp] theorem readNumber_datum (n : Number) : readNumber n.datum = .ok n := by
  cases n <;> rfl

@[simp] theorem displayText_text (s : String) : displayText (.text s) = .ok s := rfl

@[simp] theorem partUnder?_cons_text (key name : String) (datum : Data)
    (rest : List (Data × Data)) :
    partUnder? ((.text name, datum) :: rest) key =
      if name = key then some ⟨datum, read datum⟩ else partUnder? rest key := by
  unfold partUnder?
  rw [Data.lookup?_cons_text]
  split <;> rfl

theorem read_tagged (tag : String) (parts : List (String × Data)) (origin : Origin) :
    read (.tagged tag parts origin) = assemble (.tagged tag parts origin)
      (partUnder? ((.text "type", .text tag) :: parts.map (fun part => (.text part.1, part.2)) ++
        origin.entries)) :=
  read_dict _

mutual

/-- The document of a tree denotes the tree, in which an import is located by the tag that it is
written under. -/
theorem read_document_respelled (older : String → Origin → Bool) (node : Node)
    (canonical : node.Canonical) :
    read (node.document older) = .ok (node.respelled older).unmarked := by
  match node with
  | absent => exact read_null
  | list _ items =>
      rw [document, read_list, mapM_read_documents older items canonical]
      rfl
  | number n origin | text s origin | boolean b origin | memory name origin =>
      have located := Origin.readOrigin_entries canonical
      simp [document, read_tagged, assemble, located, readBoolean, respelled, unmarked]
  | call name parameters yielded origin =>
      obtain ⟨fits, canonical, under⟩ := canonical
      have located := Origin.readOrigin_entries fits
      have arguments := mapM_read_documents older parameters canonical
      have tree := read_document_respelled older yielded under
      simp [document, read_tagged, assemble, located, arguments, tree, respelled, unmarked]
  | block body origin | program body origin | group body origin =>
      obtain ⟨fits, canonical⟩ := canonical
      have located := Origin.readOrigin_entries fits
      have statements := mapM_read_documents older body canonical
      simp [document, read_tagged, assemble, located, statements, respelled, unmarked]
  | moduleImport name origin =>
      obtain ⟨fits, named⟩ := canonical
      have holds : (Data.text name).holds = true := by simp [Data.holds, named]
      cases spelling : older name origin with
      | true =>
          have located := Origin.readOrigin_entries (fits.retagged "NeedOperator")
          rw [Origin.entries_retagged] at located
          have unnamed : Data.lookup? "name" origin.entries = none :=
            origin.lookup?_entries (by decide) (by decide)
          simp [document, read_tagged, assemble, assemble.importNode, located, spelling, unnamed,
            holds, respelled, unmarked]
      | false =>
          have located := Origin.readOrigin_entries fits
          simp [document, read_tagged, assemble, assemble.importNode, located, spelling, holds,
            respelled, unmarked]

theorem mapM_read_documents (older : String → Origin → Bool) (nodes : List Node)
    (canonical : AllCanonical nodes) :
    (documents older nodes).mapM read = .ok (unmarkedAll (respelledAll older nodes)) := by
  match nodes with
  | [] => rfl
  | node :: rest =>
      rw [documents, List.mapM_cons, read_document_respelled older node canonical.1,
        mapM_read_documents older rest canonical.2]
      rfl

end

/-- The canonical document of a tree denotes that tree with its locations. If imports are written
under their older tag, then that is the tag of their locations, and nothing else changes. -/
theorem read_document {node : Node} (canonical : node.Canonical) :
    read (node.document fun _ _ => false) = .ok node.unmarked ∧
    ∀ older, read (node.document older) = .ok (node.respelled older).unmarked := by
  have spelled := fun older => read_document_respelled older node canonical
  have plain := spelled fun _ _ => false
  rw [respelled_never] at plain
  exact ⟨plain, spelled⟩

/-- A definition with a list among its arguments, and a block in which something is missing. -/
def definition : Node :=
  .call "def"
    [.memory "f" { location := some ⟨.int 1, .int 5, "MemoryLiteral"⟩, mark := 7 },
      .list 8 [.absent, .number (.real 0.5) {}, .list 9 []]]
    (.block [.moduleImport "./lib" { location := some ⟨.int 2, .text "", "ModuleImport"⟩ },
      .absent, .group [] {}] { mark := 3 })
    { location := some ⟨.int 1, .bool false, "FunctionCall"⟩ }

/-- The definition is read back from its document, whichever tag its import is written under. -/
theorem read_document_definition :
    definition.Canonical ∧
    read (definition.document fun _ _ => false) = .ok definition.unmarked ∧
    read (definition.document fun name _ => name == "./lib") =
      .ok (.call "def"
        [.memory "f" { location := some ⟨.int 1, .int 5, "MemoryLiteral"⟩ },
          .list 0 [.absent, .number (.real 0.5) {}, .list 0 []]]
        (.block [.moduleImport "./lib" { location := some ⟨.int 2, .text "", "NeedOperator"⟩ },
          .absent, .group [] {}] {})
        { location := some ⟨.int 1, .bool false, "FunctionCall"⟩ }) := by
  have canonical : definition.Canonical := by
    simp [definition, Canonical, AllCanonical, Origin.Fits]
  obtain ⟨plain, spelled⟩ := read_document canonical
  exact ⟨canonical, plain, spelled fun name _ => name == "./lib"⟩

end Node

end TreeScript
