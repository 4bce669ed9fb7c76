import TreeScript.Evaluation

/-!
# Reports of errors

What ended a run early is told in a few lines: a headline with the kind of the error, the call that
it is about, and the calls that were active. The call is shown without the block it was given. A
report of an evaluation that nested too deeply has its headline only.
-/

namespace TreeScript

/-- The kind of error that ended a run, if it was an error of the language. -/
def Interrupt.kind? : Interrupt → Option ErrorKind
  | .error fatal => some fatal.cause.kind
  | _ => none

def Interrupt.headline : Interrupt → String
  | .error fatal => fatal.cause.kind.name ++ "Error: " ++ fatal.cause.message
  | .failure reason => "InternalError: " ++ reason.message
  | .tooDeep => "RecursionError: maximum evaluation depth exceeded"

/-- The node that the report is about: that of the error, or else the one last evaluated. -/
def Interrupt.node (current : Node) : Interrupt → Node
  | .error fatal => match fatal.node with
    | .absent => current
    | node => node
  | _ => current

/-- The call that a report shows, without the block it was given. -/
def Interrupt.shownCall? (current : Node) (interrupt : Interrupt) : Option Node :=
  match interrupt with
  | .tooDeep => none
  | interrupt => match interrupt.node current with
    | .call name parameters yielded origin =>
        some (Node.call name parameters yielded origin).withoutYield
    | _ => none

/-- The line that lists the active calls; without any there is no line. -/
def stackLines (trace : List String) : List String :=
  if trace.isEmpty then []
  else ["bean stacktrace: " ++ " ".intercalate (trace.map fun name => "(" ++ name ++ ")")]

/-- The names of the calls that were active, the outermost first. -/
def Interrupt.trace : Interrupt → List String
  | .error fatal => fatal.trace
  | _ => []

/-- What is reported about the end of a run. -/
structure Report where
  message : String
  kind : Option ErrorKind
  location : Option Location

/-- The report of an interrupt. There is none when something stands in the way of the text of the
call to be shown. -/
def Interrupt.report (room : Nat) (current : Node) (interrupt : Interrupt) :
    Except Layout.Obstacle Report :=
  let lines (callLines : List String) : Report :=
    { message := "\n".intercalate
        (interrupt.headline :: callLines ++ stackLines interrupt.trace)
      kind := interrupt.kind?
      location := (interrupt.node current).location? }
  match interrupt.shownCall? current with
  | none => .ok (lines [])
  | some call => match Layout.nodeObstacle? room call with
    | none => .ok (lines ["At " ++ Layout.nodeText Layout.defaultWidth 0 call])
    | some obstacle => .error obstacle

/-- A message with the line and the column it is about, if the line is known. A message that names
a line already is left as it is. -/
def locatedMessage (room : Nat) (message : String) (line column : Data) :
    Except Layout.Obstacle String :=
  let message := if message.isEmpty then "Unknown error" else message
  match line with
  | .null => .ok message
  | line =>
      if "Error on line ".toList.isPrefixOf message.toList then .ok message
      else
        -- The column is written first.
        let (columnText, obstacle?) := match column with
          | .null => ("", none)
          | column => (", col " ++ column.display, Layout.displayObstacle? room column)
        match obstacle?.or (Layout.displayObstacle? room line) with
        | none => .ok ("Error on line " ++ line.display ++ columnText ++ ": " ++ message)
        | some obstacle => .error obstacle

def Report.located (room : Nat) (report : Report) : Except Layout.Obstacle String :=
  match report.location with
  | none => locatedMessage room report.message .null .null
  | some location => locatedMessage room report.message location.line location.column

end TreeScript
