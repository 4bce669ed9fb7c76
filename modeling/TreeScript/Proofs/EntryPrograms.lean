import TreeScript.Proofs.OutputRouting

/-!
# The program of a file as an entry and as a module

The run of a file decodes it and then loads the datum as a document, for which a text is decoded
once more. An import takes the datum as it is. So the two evaluate the same program of a file, or
neither evaluates one, exactly if the file does not decode to a text that is a document itself.
-/

namespace TreeScript

/-- The program that the run of a file evaluates. -/
def Files.entryProgram (files : Files) (path : Path) : Except LoadFault Node := do
  Document.load files.reader (← (Document.atPath files path).mapError .decode)

/-! ### The place of a file -/

theorem exists_of_isSome_toOption {ε α : Type} {result : Except ε α}
    (given : result.toOption.isSome = true) : ∃ a, result = .ok a := by
  cases result with
  | ok a => exact ⟨a, rfl⟩
  | error _ => cases given

section

variable {files : Files} {path : Path} {bytes : List UInt8}

/-- A path that leads to a file leads to the place that its parts name one after the other, and the
last of them is the name of the file. -/
theorem at?_of_follow {here : Place} {parts : List String}
    (found : files.follow here parts = .ok (.file bytes)) (other : String) :
    files.at? (parts.foldl Place.step here) = some (.file bytes) ∧
      (parts.foldl Place.step here).name = parts.getLastD other := by
  fun_induction Files.follow files here parts generalizing other with
  | case1 here => cases found
  | case2 here rest ih =>
      rw [List.foldl_cons, List.getLastD_cons]
      exact ih found ".."
  | case3 | case4 | case7 => cases found
  | case5 here part forward short rest directory ih =>
      have below : here.step part = here.below part := if_neg forward
      rw [List.foldl_cons, List.getLastD_cons, below]
      exact ih found part
  | case6 here part forward short read file =>
      cases found
      have below : here.step part = here.below part := if_neg forward
      rw [List.foldl_cons, List.foldl_nil, below]
      exact ⟨file, by simp [Place.below, Place.name]⟩

/-- A file that is read along a path is loaded as a module from the same bytes, in the format that
the path tells. -/
theorem program_resolve (reads : files.bytes path = .ok bytes) :
    files.program (files.working.resolve path) =
      Document.loadFile files.reader path.suffix bytes := by
  have found : files.follow (if path.root = "" then files.working else ⟨.root, []⟩) path.parts =
      .ok (.file bytes) := by
    unfold Files.bytes at reads
    split at reads
    · cases reads
    · simp only at reads
      split at reads
      next followed =>
        cases reads
        exact followed
      all_goals cases reads
  obtain ⟨file, name⟩ := at?_of_follow found ""
  have at_place : files.at? (files.working.resolve path) = some (.file bytes) := file
  have named : (files.working.resolve path).name = path.parts.getLastD "" := name
  simp only [Files.program, at_place, named, Path.suffix]

/-! ### The two loads -/

/-- No text is a program as it is. -/
theorem toOption_program_text (reader : Reader) (s : String) :
    ((reader.program (.text s)).mapError LoadFault.tree).toOption = none := by
  unfold Reader.program
  split <;> rfl

/-- A datum that is no text is loaded as it is. -/
theorem load_of_ne_text (reader : Reader) {datum : Data} (other : ∀ s, datum ≠ .text s) :
    Document.load reader datum = (reader.program datum).mapError .tree := by
  cases datum with
  | text s => exact absurd rfl (other s)
  | _ => rfl

theorem atPath_of_bytes (reads : files.bytes path = .ok bytes) :
    Document.atPath files path = Document.decodeFile files.reader path.suffix bytes := by
  rw [Document.atPath, reads]
  rfl

/-- The run of a file and an import of it have the same program, or neither has one, exactly if the
file does not decode to a text that is a document itself. -/
theorem toOption_entryProgram_iff (reads : files.bytes path = .ok bytes) :
    (files.entryProgram path).toOption =
        (files.program (files.working.resolve path)).toOption ↔
      ∀ s, Document.decodeFile files.reader path.suffix bytes = .ok (.text s) →
        ∀ program, Document.load files.reader (.text s) ≠ .ok program := by
  rw [program_resolve reads, Files.entryProgram, atPath_of_bytes reads, Document.loadFile]
  cases decoded : Document.decodeFile files.reader path.suffix bytes with
  | error fault => exact iff_of_true rfl nofun
  | ok datum =>
      change (Document.load files.reader datum).toOption =
        ((files.reader.program datum).mapError LoadFault.tree).toOption ↔ _
      by_cases text : ∃ s, datum = .text s
      · obtain ⟨s, rfl⟩ := text
        rw [toOption_program_text]
        cases loaded : Document.load files.reader (.text s) with
        | error fault =>
            refine iff_of_true rfl fun other same program => ?_
            cases same
            simp [loaded]
        | ok program =>
            refine iff_of_false nofun fun fails => ?_
            exact fails s rfl program loaded
      · have other : ∀ s, datum ≠ .text s := not_exists.mp text
        rw [load_of_ne_text files.reader other]
        exact iff_of_true rfl fun s same => absurd (Except.ok.inj same) (other s)

end

/-! ### What is evaluated -/

theorem run_inspect_bind {α β : Type} (view : Settings → State → α) (next : α → Rule β)
    (evaluator : Evaluator) (settings : Settings) (state : State) :
    (Rule.inspect view >>= next).run evaluator settings state =
      (next (view settings state)).run evaluator settings state := rfl

/-- An import that comes to load a file evaluates the program of the file as a module. -/
theorem run_moduleOfFile {settings : Settings} {state : State} {importer : RuntimeId}
    {place : Place} {program : Node} (unloaded : (state.registryOf importer).loaded? place = none)
    (idle : (state.registryOf importer).isLoading place = false)
    (found : settings.files.program place = .ok program) (evaluator : Evaluator) :
    (moduleOfFile importer place).run evaluator settings state =
      (evaluateModule importer place program).run evaluator settings state := by
  simp only [moduleOfFile, run_inspect_bind, unloaded, idle, found, Bool.false_eq_true, if_false]

namespace Runner

/-- The run of a file that can be read evaluates the program of the file as an entry, if there is
one, and an import that comes to load the file evaluates its program as a module. These are the
same, or there is neither, exactly if the file does not decode to a text that is a document
itself. -/
theorem entry_program_iff {settings : Settings} {path : Path} {bytes : List UInt8}
    (reads : settings.files.bytes path = .ok bytes) (runner : Runner) (depth : Nat)
    (state : State) :
    let place := settings.files.working.resolve path
    let beside := runner.beside settings.files path
    (runner.callMoments settings depth state (.file path) =
      match settings.files.entryProgram path with
      | .error _ => []
      | .ok program => beside.moments settings depth (some place) program
          (beside.prepared settings state)) ∧
    (∀ importer program, (state.registryOf importer).loaded? place = none →
      (state.registryOf importer).isLoading place = false →
      settings.files.program place = .ok program →
      (moduleOfFile importer place).run (evaluate depth) settings state =
        (evaluateModule importer place program).run (evaluate depth) settings state) ∧
    ((settings.files.entryProgram path).toOption = (settings.files.program place).toOption ↔
      ∀ s, Document.decodeFile settings.files.reader path.suffix bytes = .ok (.text s) →
        ∀ program, Document.load settings.files.reader (.text s) ≠ .ok program) := by
  intro place beside
  refine ⟨?_, ?_, toOption_entryProgram_iff reads⟩
  · simp only [callMoments, Files.entryProgram]
    cases Document.atPath settings.files path <;> rfl
  · intro importer program unloaded idle found
    exact run_moduleOfFile unloaded idle found (evaluate depth)

/-- A file that holds a dictionary has the same program for both. -/
theorem entry_program_number :
    let files : Files := .ofLines [("main.yaml", ["type: NumberLiteral", "value: 5"])]
    let path := Path.ofText "main.yaml"
    (∃ bytes, files.bytes path = .ok bytes) ∧ (files.entryProgram path).toOption.isSome ∧
      (files.entryProgram path).toOption =
        (files.program (files.working.resolve path)).toOption := by
  intro files path
  obtain ⟨bytes, reads⟩ : ∃ bytes, files.bytes path = .ok bytes :=
    exists_of_isSome_toOption (by decide +kernel)
  have dictionary : (Document.atPath files path).toOption.map Data.isDict = some true := by
    decide +kernel
  have same_files : (Settings.quiet files).files = files := rfl
  obtain ⟨-, -, same⟩ := entry_program_iff (same_files ▸ reads) main 12 (.solo false)
  refine ⟨⟨bytes, reads⟩, by decide +kernel, same.mpr fun s text => ?_⟩
  have text : Document.decodeFile files.reader path.suffix bytes = .ok (.text s) := text
  rw [atPath_of_bytes reads, text] at dictionary
  cases dictionary

/-- A file that holds the text of an empty list is a program for a run, and none for an import. -/
theorem entry_program_text :
    let files : Files := .ofLines [("main.json", ["\"[]\""])]
    let path := Path.ofText "main.json"
    (files.entryProgram path).toOption.isSome ∧
      (files.program (files.working.resolve path)).toOption.isNone := by
  decide +kernel

end Runner

end TreeScript
