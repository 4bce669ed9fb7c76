import TreeScript.Json
import TreeScript.Yaml.Cursor

/-!
# The text of a YAML scalar

A scalar is written plainly, between quotes, or as an indented block. In the first two styles a
single line end stands for a space and a further one for itself; in a block, line ends are kept or
folded as its header says.
-/

namespace TreeScript.Yaml

/-- What is written for a line end and the empty lines after it: the empty lines, or a space if
there are none. A line or paragraph separator is kept. -/
def foldBreaks (first : Char) (more : List Char) : List Char :=
  if first != '\n' then first :: more else if more.isEmpty then [' '] else more

/-! ### Quoted scalars -/

def escapeLetter? : Char → Option Char
  | '0' => some '\x00'
  | 'a' => some '\x07'
  | 'b' => some '\x08'
  | 't' => some '\t'
  | '\t' => some '\t'
  | 'n' => some '\n'
  | 'v' => some '\x0b'
  | 'f' => some '\x0c'
  | 'r' => some '\r'
  | 'e' => some '\x1b'
  | ' ' => some ' '
  | '"' => some '"'
  | '\\' => some '\\'
  | '/' => some '/'
  | 'N' => some '\x85'
  | '_' => some '\xa0'
  | 'L' => some '\u2028'
  | 'P' => some '\u2029'
  | _ => none

def escapeWidth? : Char → Option Nat
  | 'x' => some 2
  | 'u' => some 4
  | 'U' => some 8
  | _ => none

/-- The character of a code point given by hexadecimal digits. Half of a character is none. -/
def codeChar (digits : List Char) : Except Fault Char :=
  match digits.mapM Json.hexValue? with
  | none => .error .malformed
  | some values =>
      let code := values.foldl (fun value digit => value * 16 + digit) 0
      if 0x80000000 ≤ code then .error .codeTooLarge
      else if 0x110000 ≤ code then .error .codeOutOfRange
      else if Nat.isValidChar code then .ok (Char.ofNat code)
      else .error .unsupported

/-- The empty lines after a line end inside quotes. No document may begin there. -/
def quotedBreaks : Nat → Cursor → Except Fault (List Char × Cursor)
  | 0, _ => .error .malformed
  | fuel + 1, cursor =>
      if cursor.atDocumentMark then .error .malformed
      else
        let cursor := cursor.skipWhile fun c => c == ' ' || c == '\t'
        match cursor.takeBreak with
        | (some c, after) => (quotedBreaks fuel after).map fun (more, cursor) => (c :: more, cursor)
        | (none, _) => .ok ([], cursor)

def quotedText (quote : Char) : Nat → Cursor → Except Fault (List Char × Cursor)
  | 0, _ => .error .malformed
  | fuel + 1, cursor =>
      let continueWith (text : List Char) (cursor : Cursor) : Except Fault (List Char × Cursor) :=
        (quotedText quote fuel cursor).map fun (more, cursor) => (text ++ more, cursor)
      match cursor.rest with
      | [] => .error .malformed
      | c :: _ =>
          if c == ' ' || c == '\t' then
            let (spaces, after) := cursor.takeWhile fun c => c == ' ' || c == '\t'
            match after.takeBreak with
            | (some first, after) => do
                let (more, after) ← quotedBreaks (after.rest.length + 1) after
                continueWith (foldBreaks first more) after
            | (none, _) => continueWith spaces after
          else if isBreak c then
            match cursor.takeBreak with
            | (some first, after) => do
                let (more, after) ← quotedBreaks (after.rest.length + 1) after
                continueWith (foldBreaks first more) after
            | (none, _) => .error .malformed
          else if c == quote then
            if quote == '\'' && cursor.peek 1 == some '\'' then
              continueWith ['\''] (cursor.forward 2)
            else .ok ([], cursor.next)
          else if quote == '"' && c == '\\' then
            match cursor.next.rest with
            | [] => .error .malformed
            | letter :: digits =>
                match escapeLetter? letter, escapeWidth? letter with
                | some c, _ => continueWith [c] (cursor.forward 2)
                | none, some width => do
                    if digits.length < width then .error .malformed
                    else continueWith [← codeChar (digits.take width)] (cursor.forward (2 + width))
                | none, none =>
                    match cursor.next.takeBreak with
                    | (some _, after) => do
                        let (more, after) ← quotedBreaks (after.rest.length + 1) after
                        continueWith more after
                    | (none, _) => .error .malformed
          else continueWith [c] cursor.next

/-! ### Plain scalars -/

/-- The characters of a plain scalar up to a blank, to a colon that ends a key, and inside brackets
to a character that means something there. -/
def plainRun (inFlow : Bool) : List Char → List Char
  | [] => []
  | c :: rest =>
      if isBreak c || c == ' ' || c == '\t' then []
      else if c == ':' && (endsToken rest.head?
          || inFlow && rest.head?.any fun next => ",[]\x7b\x7d".toList.contains next) then []
      else if inFlow && ",?[]\x7b\x7d".toList.contains c then []
      else c :: plainRun inFlow rest

/-- The line ends between two lines of a plain scalar, or none if a document begins or ends. -/
def plainBreaks : Nat → Cursor → Option (List Char) × Cursor
  | 0, cursor => (none, cursor)
  | fuel + 1, cursor =>
      let cursor := cursor.skipWhile (· == ' ')
      match cursor.takeBreak with
      | (some c, after) =>
          if after.atDocumentMark then (none, after)
          else
            let (more, after) := plainBreaks fuel after
            (more.map (c :: ·), after)
      | (none, _) => (some [], cursor)

/-- The blanks after a run of a plain scalar. -/
structure PlainGap where
  /-- What is written for the blanks if the scalar goes on; empty if it cannot. -/
  text : List Char
  newLine : Bool
  after : Cursor

/-- Reads the blanks after a run of a plain scalar. -/
def plainGap (cursor : Cursor) : PlainGap :=
  let (spaces, after) := cursor.takeWhile (· == ' ')
  match after.takeBreak with
  | (none, _) => ⟨spaces, false, after⟩
  | (some first, after) =>
      if after.atDocumentMark then ⟨[], true, after⟩
      else match plainBreaks (after.rest.length + 1) after with
        | (none, after) => ⟨[], true, after⟩
        | (some more, after) => ⟨foldBreaks first more, true, after⟩

/-- A plain scalar, whether the line of its last run has ended, and the cursor after the blanks that
follow it. Lines that go on outside brackets are indented by at least `indent`. -/
def plainText (inFlow : Bool) (indent : Int) :
    Nat → List Char → Cursor → List Char × Bool × Cursor
  | 0, _, cursor => ([], false, cursor)
  | fuel + 1, gap, cursor =>
      let run := if cursor.head == some '#' then [] else plainRun inFlow cursor.rest
      if run.isEmpty then ([], true, cursor)
      else
        let next := plainGap (cursor.forward run.length)
        if next.text.isEmpty || next.after.head == some '#'
            || (!inFlow && next.after.column < indent) then
          (gap ++ run, next.newLine, next.after)
        else
          let (more, newLine, after) := plainText inFlow indent fuel next.text next.after
          (gap ++ run ++ more, if more.isEmpty then next.newLine else newLine, after)

/-! ### Block scalars -/

/-- What becomes of the line ends after the last line of a block. -/
inductive Chomping where
  | strip
  | clip
  | keep
deriving DecidableEq

def chomping? : Option Char → Option Chomping
  | some '+' => some .keep
  | some '-' => some .strip
  | _ => none

def increment? : Option Char → Except Fault (Option Nat)
  | some c =>
      if c == '0' then .error .malformed
      else if c.isDigit then .ok (some (c.toNat - 48))
      else .ok none
  | none => .ok none

/-- The header of a block: a sign and a digit, both optional, in either order. -/
def blockHeader (cursor : Cursor) : Except Fault (Chomping × Option Nat × Cursor) := do
  let finish (chomping : Option Chomping) (increment : Option Nat) (cursor : Cursor) :
      Except Fault (Chomping × Option Nat × Cursor) := do
    if !endsWord cursor.head then .error .malformed
    else return (chomping.getD .clip, increment, ← cursor.endLine)
  match chomping? cursor.head with
  | some chomping =>
      let after := cursor.next
      match ← increment? after.head with
      | some increment => finish (some chomping) (some increment) after.next
      | none => finish (some chomping) none after
  | none =>
      match ← increment? cursor.head with
      | some increment =>
          let after := cursor.next
          match chomping? after.head with
          | some chomping => finish (some chomping) (some increment) after.next
          | none => finish none (some increment) after
      | none => finish none none cursor

/-- The empty lines before the first line of a block, and the greatest indentation seen. -/
def blockIndentation : Nat → Nat → Cursor → List Char × Nat × Cursor
  | 0, widest, cursor => ([], widest, cursor)
  | fuel + 1, widest, cursor =>
      let after := cursor.skipWhile (· == ' ')
      let widest := if after.index = cursor.index then widest else max widest after.column
      match after.takeBreak with
      | (some c, after) =>
          let (more, widest, after) := blockIndentation fuel widest after
          (c :: more, widest, after)
      | (none, _) => ([], widest, after)

def skipIndent (indent : Nat) (cursor : Cursor) : Cursor :=
  let spaces := (cursor.rest.takeWhile (· == ' ')).length
  cursor.forward (min spaces (indent - cursor.column))

def blockBreaks (indent : Nat) : Nat → Cursor → List Char × Cursor
  | 0, cursor => ([], cursor)
  | fuel + 1, cursor =>
      let after := skipIndent indent cursor
      match after.takeBreak with
      | (some c, after) =>
          let (more, after) := blockBreaks indent fuel after
          (c :: more, after)
      | (none, _) => ([], after)

/-- A line that begins with a blank is never folded. -/
def beginsBlank (cursor : Cursor) : Bool :=
  cursor.head.any fun c => c == ' ' || c == '\t'

/-- The lines of a block, from the first one on, with the line end after the last of them and the
empty lines after that. -/
def blockLines (folded : Bool) (indent : Nat) :
    Nat → List Char → Cursor → List Char × List Char × List Char × Cursor
  | 0, breaks, cursor => ([], [], breaks, cursor)
  | fuel + 1, breaks, cursor =>
      if cursor.column = indent && cursor.head.isSome then
        let (line, after) := cursor.takeWhile (!isBreak ·)
        let (lineEnd, after) := after.takeBreak
        let (more, after) := blockBreaks indent (after.rest.length + 1) after
        if after.column = indent && after.head.isSome then
          let joint :=
            if folded && lineEnd == some '\n' && !beginsBlank cursor && !beginsBlank after then
              if more.isEmpty then [' '] else []
            else lineEnd.toList
          let (text, lastEnd, tail, after) := blockLines folded indent fuel more after
          (breaks ++ line ++ joint ++ text, lastEnd, tail, after)
        else (breaks ++ line, lineEnd.toList, more, after)
      else ([], [], breaks, cursor)

/-- The text of a block scalar, from after its indicator. The block is indented by more than
`indent`. -/
def blockText (folded : Bool) (indent : Int) (cursor : Cursor) :
    Except Fault (List Char × Cursor) := do
  let (chomping, increment, cursor) ← blockHeader cursor
  let least := (max (indent + 1) 1).toNat
  let fuel := cursor.rest.length + 1
  let (breaks, width, cursor) := match increment with
    | none =>
        let (breaks, widest, after) := blockIndentation fuel 0 cursor
        (breaks, max least widest, after)
    | some increment =>
        let width := least + increment - 1
        let (breaks, after) := blockBreaks width fuel cursor
        (breaks, width, after)
  let (text, lastEnd, tail, after) := blockLines folded width fuel breaks cursor
  let ending := match chomping with
    | .strip => []
    | .clip => lastEnd
    | .keep => lastEnd ++ tail
  return (text ++ ending, after)

end TreeScript.Yaml
