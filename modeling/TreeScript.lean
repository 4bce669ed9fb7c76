import TreeScript.CommandLine
import TreeScript.Data
import TreeScript.Document
import TreeScript.Evaluation
import TreeScript.Evaluation.Action
import TreeScript.Evaluation.Builtins
import TreeScript.Evaluation.Error
import TreeScript.Evaluation.Import
import TreeScript.Evaluation.Resolution
import TreeScript.Evaluation.Rule
import TreeScript.Evaluation.State
import TreeScript.Evaluation.Step
import TreeScript.Files
import TreeScript.Heap
import TreeScript.Json
import TreeScript.Layout
import TreeScript.Main
import TreeScript.Node
import TreeScript.Node.Reading
import TreeScript.Number
import TreeScript.Numeral.Double
import TreeScript.Numeral.Integer
import TreeScript.Numeral.RealText
import TreeScript.Numeral.Shortest
import TreeScript.Path
import TreeScript.Proofs.Answers
import TreeScript.Proofs.BlockPrograms
import TreeScript.Proofs.BuiltinCalls
import TreeScript.Proofs.BuiltinConfinement
import TreeScript.Proofs.BuiltinDiscipline
import TreeScript.Proofs.CallStack
import TreeScript.Proofs.CanonicalDocuments
import TreeScript.Proofs.CommandRuns
import TreeScript.Proofs.ConfinedState
import TreeScript.Proofs.ConfinedState
import TreeScript.Proofs.Confinement
import TreeScript.Proofs.Confinement
import TreeScript.Proofs.Constants
import TreeScript.Proofs.Contract
import TreeScript.Proofs.Courses
import TreeScript.Proofs.Custody
import TreeScript.Proofs.Definitions
import TreeScript.Proofs.DepthLimit
import TreeScript.Proofs.Discipline
import TreeScript.Proofs.Doubles
import TreeScript.Proofs.EndlessYield
import TreeScript.Proofs.EntryPrograms
import TreeScript.Proofs.ErrorReports
import TreeScript.Proofs.ErrorTraces
import TreeScript.Proofs.EvaluationConfinement
import TreeScript.Proofs.ExactDivision
import TreeScript.Proofs.Existence
import TreeScript.Proofs.FileStarts
import TreeScript.Proofs.Framing
import TreeScript.Proofs.Growth
import TreeScript.Proofs.HeapSeparation
import TreeScript.Proofs.ImportCycles
import TreeScript.Proofs.ImportFree
import TreeScript.Proofs.Independence
import TreeScript.Proofs.IntegerTexts
import TreeScript.Proofs.Journals
import TreeScript.Proofs.LayoutRoom
import TreeScript.Proofs.LoadingCourses
import TreeScript.Proofs.ModuleImports
import TreeScript.Proofs.ModuleLoading
import TreeScript.Proofs.Moment
import TreeScript.Proofs.Namespaces
import TreeScript.Proofs.NestedLayout
import TreeScript.Proofs.OutputRouting
import TreeScript.Proofs.Persistence
import TreeScript.Proofs.Printing
import TreeScript.Proofs.Provenance
import TreeScript.Proofs.PublishedBlocks
import TreeScript.Proofs.QuotedTexts
import TreeScript.Proofs.Realm
import TreeScript.Proofs.Reduction
import TreeScript.Proofs.Registrations
import TreeScript.Proofs.RenamedStates
import TreeScript.Proofs.RepeatedTexts
import TreeScript.Proofs.Results
import TreeScript.Proofs.Routine
import TreeScript.Proofs.RunCustody
import TreeScript.Proofs.ScopeChains
import TreeScript.Proofs.SealedEvaluation
import TreeScript.Proofs.SealedScopes
import TreeScript.Proofs.Session
import TreeScript.Proofs.SessionConfinement
import TreeScript.Proofs.SoundState
import TreeScript.Proofs.Soundness
import TreeScript.Proofs.StackDiscipline
import TreeScript.Proofs.TreeGrammar
import TreeScript.Proofs.TreeReading
import TreeScript.Proofs.TwinEvaluation
import TreeScript.Proofs.Twins
import TreeScript.Proofs.Validity
import TreeScript.Reader
import TreeScript.Registry
import TreeScript.Report
import TreeScript.Runner
import TreeScript.Table
import TreeScript.Text.Blank
import TreeScript.Text.DecimalDigit
import TreeScript.Text.Lines
import TreeScript.Text.Printable
import TreeScript.Text.Quoted
import TreeScript.Text.Ranges
import TreeScript.Text.Utf8
import TreeScript.Value
import TreeScript.Yaml
import TreeScript.Yaml.Cursor
import TreeScript.Yaml.Element
import TreeScript.Yaml.Scalar
import TreeScript.Yaml.ScalarText
import TreeScript.Yaml.Token
