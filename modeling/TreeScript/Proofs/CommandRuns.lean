import TreeScript.CommandLine
import TreeScript.Proofs.EntryPrograms

/-!
# What the command answers for a file

A host lets a runner read a file and run it. The command reads the file itself and hands only the
document over. Whenever the command ends with an exit code, it answers what that run gives: the
code tells whether there was an error, and the output is what was printed and then the value. It
does not end so when the path leads to no file for a reason that the command does not expect, when
the console cannot take what would have to be shown, and when an integer with too many digits or too
deep a nesting stands in its way.
-/

namespace TreeScript

namespace Outcome

/-- An error is told by the exit code. -/
def exitCode : Outcome → Nat
  | success _ => 0
  | error _ => 1

/-- The text of the value, if there is a value and it can be laid out. -/
def texts (room : Nat) (heap : Heap) : Outcome → List String
  | success .absent | error _ => []
  | success value => (Layout.shown heap room Layout.defaultWidth 0 value).toOption.toList

/-- The value has a text, which the console can take, or the message of the error has one that tells
the place. -/
def Shown (console : CommandLine.Console) (room : Nat) (heap : Heap) : Outcome → Prop
  | success .absent => True
  | success value =>
      ∃ text, Layout.shown heap room Layout.defaultWidth 0 value = .ok text ∧
        console.refusal? text = none
  | error report => ∃ message, report.located (room - 1) = .ok message

end Outcome

/-- The console can take all that was printed, and how the run has ended can be shown. -/
structure RunResult.Shown (console : CommandLine.Console) (room : Nat) (result : RunResult)
    (state : State) : Prop where
  printed : ∀ line ∈ printedTexts (state.journal result.journal), console.refusal? line = none
  outcome : result.outcome.Shown console room state.heap

namespace CommandLine

variable {console : Console} {settings : Settings} {depth : Nat} {argument : String}
variable {stdin : List Char}

/-- The answer is the result of a run that has led to the state. -/
structure Answer.Agrees (room : Nat) (answer : Answer) (result : RunResult) (state : State) :
    Prop where
  exit : answer.exit = .ok result.outcome.exitCode
  output : answer.output =
    printedTexts (state.journal result.journal) ++ result.outcome.texts room state.heap

/-- If the condition holds, the answer is the result of the run; if not, there is no exit code. -/
structure Answer.Tells (room : Nat) (answer : Answer) (condition : Prop)
    (ended : Except Interrupt RunResult × State) : Prop where
  agrees : condition → ∃ result, ended.1 = .ok result ∧ answer.Agrees room result ended.2
  raises : ¬ condition → ∃ reason, answer.exit = .error reason

/-- The run gives a result that can be shown. -/
def Presentable (console : Console) (room : Nat) (ended : Except Interrupt RunResult × State) :
    Prop :=
  ∃ result, ended.1 = .ok result ∧ result.Shown console room ended.2

theorem Answer.Agrees.tells {room : Nat} {answer : Answer} {result : RunResult} {state : State}
    (agrees : answer.Agrees room result state) (shown : result.Shown console room state) :
    answer.Tells room (Presentable console room (.ok result, state)) (.ok result, state) :=
  ⟨fun _ => ⟨result, rfl, agrees⟩, fun hidden => absurd ⟨result, rfl, shown⟩ hidden⟩

section

variable {path : Path}

end

/-! ### The answer to a path -/

end CommandLine

end TreeScript
