import TreeScript.Yaml.ScalarText

/-!
# YAML tokens

A YAML text is cut into tokens that make its structure explicit: indentation becomes starts and ends
of blocks. A key is recognised late, at the colon after it. So every token that might begin a key
is remembered, and the tokens for the key are put in front of it when the colon comes. A key stands
on one line and within 1024 characters of its colon.

A text is read only as far as is needed: a token is ready as soon as it cannot become a key any
more. So where a text is at fault, the tokens that were ready before count.
-/

namespace TreeScript.Yaml

/-- A token of a YAML text. -/
inductive Token where
  /-- A directive; the number is the major version if it names one. -/
  | directive (version : Option Nat)
  | documentStart
  | documentEnd
  | streamEnd
  | sequenceStart
  | mappingStart
  | blockEnd
  | flowSequenceStart
  | flowSequenceEnd
  | flowMappingStart
  | flowMappingEnd
  | blockEntry
  | flowEntry
  | key
  | value
  | alias (name : String)
  | anchor (name : String)
  /-- A scalar; only a plain one can be anything but a text. -/
  | scalar (text : String) (plain : Bool)
deriving Repr, DecidableEq

/-- The tokens of a text. -/
structure Tokens where
  /-- The tokens that are ready before the text is at fault. -/
  ready : List Token
  /-- The fault met by whoever asks for a token after them. -/
  fault : Fault

/-- A token that may turn out to begin a key. -/
structure KeyCandidate where
  place : Nat
  /-- The text is malformed if it does not begin a key. -/
  required : Bool
  index : Nat
  line : Nat
  column : Nat

/-- The state of cutting a text into tokens. -/
structure Lexer where
  cursor : Cursor
  tokens : Array Token := #[]
  flowLevel : Nat := 0
  indent : Int := -1
  indents : List Int := []
  keyAllowed : Bool := true
  /-- The candidates, at most one for each level of brackets. -/
  candidates : List (Nat × KeyCandidate) := []
  finished : Bool := false

namespace Lexer

abbrev Step := Except Fault Lexer

def emit (lexer : Lexer) (token : Token) : Lexer := { lexer with tokens := lexer.tokens.push token }

def forward (lexer : Lexer) (count : Nat) : Lexer :=
  { lexer with cursor := lexer.cursor.forward count }

def column (lexer : Lexer) : Int := lexer.cursor.column

def inFlow (lexer : Lexer) : Bool := lexer.flowLevel != 0

/-- Skips spaces, comments and line ends. A key may begin on a new line. -/
def skipToToken : Nat → Lexer → Lexer
  | 0, lexer => lexer
  | fuel + 1, lexer =>
      let cursor := (lexer.cursor.skipWhile (· == ' ')).skipComment
      match cursor.takeBreak with
      | (some _, after) =>
          skipToToken fuel
            { lexer with cursor := after, keyAllowed := lexer.keyAllowed || !lexer.inFlow }
      | (none, _) => { lexer with cursor }

def dropStale (lexer : Lexer) : Step :=
  let isStale (candidate : KeyCandidate) : Bool :=
    candidate.line != lexer.cursor.line || 1024 < lexer.cursor.index - candidate.index
  if lexer.candidates.any fun entry => isStale entry.2 && entry.2.required then .error .malformed
  else .ok { lexer with candidates := lexer.candidates.filter fun entry => !isStale entry.2 }

def candidate? (lexer : Lexer) : Option KeyCandidate :=
  (lexer.candidates.find? fun entry => entry.1 == lexer.flowLevel).map (·.2)

def withoutCandidate (lexer : Lexer) : Lexer :=
  { lexer with candidates := lexer.candidates.filter fun entry => entry.1 != lexer.flowLevel }

def dropCandidate (lexer : Lexer) : Step :=
  if lexer.candidate?.any (·.required) then .error .malformed else .ok lexer.withoutCandidate

def saveCandidate (lexer : Lexer) : Step :=
  if lexer.keyAllowed then do
    let lexer ← lexer.dropCandidate
    let candidate : KeyCandidate :=
      { place := lexer.tokens.size
        required := !lexer.inFlow && lexer.indent == lexer.column
        index := lexer.cursor.index
        line := lexer.cursor.line
        column := lexer.cursor.column }
    return { lexer with candidates := (lexer.flowLevel, candidate) :: lexer.candidates }
  else .ok lexer

/-- Ends the blocks that are indented by more than a column. -/
def unwind (column : Int) (lexer : Lexer) : Lexer :=
  if lexer.inFlow then lexer
  else
    let ended := (lexer.indent :: lexer.indents).takeWhile (column < ·)
    match (lexer.indent :: lexer.indents).drop ended.length with
    | indent :: indents =>
        { lexer with
          indent, indents
          tokens := lexer.tokens ++ Array.replicate ended.length Token.blockEnd }
    | [] => lexer

/-- Begins a block at a column if it is indented by more than the present one. -/
def openBlock (lexer : Lexer) (column place : Nat) (start : Token) : Lexer :=
  if lexer.indent < column then
    { lexer with
      indents := lexer.indent :: lexer.indents
      indent := column
      tokens := lexer.tokens.insertIdxIfInBounds place start }
  else lexer

/-- The blocks end and no key can begin: the document ends or is about to begin. -/
def leaveDocument (lexer : Lexer) : Step := do
  let lexer ← (lexer.unwind (-1)).dropCandidate
  return { lexer with keyAllowed := false }

def lexEnd (lexer : Lexer) : Step := do
  let lexer ← lexer.leaveDocument
  return { lexer.emit .streamEnd with candidates := [], finished := true }

def lexDocumentMark (token : Token) (lexer : Lexer) : Step := do
  return ((← lexer.leaveDocument).forward 3).emit token

def isNameChar (c : Char) : Bool := c.isAlphanum || c == '-' || c == '_'

def versionPart (cursor : Cursor) : Except Fault (Nat × Cursor) := do
  let (digits, after) := cursor.takeWhile Char.isDigit
  if digits.isEmpty then .error .malformed
  else if Numeral.digitLimit < digits.length then .error (.tooManyDigits digits.length)
  else return (digits.foldl (fun value c => value * 10 + (c.toNat - 48)) 0, after)

def versionNumber (cursor : Cursor) : Except Fault (Nat × Cursor) := do
  let (major, after) ← versionPart (cursor.skipWhile (· == ' '))
  if after.head != some '.' then .error .malformed
  let (_, last) ← versionPart after.next
  if !endsWord last.head then .error .malformed
  return (major, last)

/-- A directive. All but the one that names a version are ignored. -/
def lexDirective (lexer : Lexer) : Step := do
  let lexer ← lexer.leaveDocument
  let (name, after) := lexer.cursor.next.takeWhile isNameChar
  if name.isEmpty || !endsWord after.head then .error .malformed
  else if name == "YAML".toList then
    let (version, after) ← versionNumber after
    let after ← after.endLine
    return { lexer.emit (.directive (some version)) with cursor := after }
  else
    let after ← (after.skipWhile (!isBreak ·)).endLine
    return { lexer.emit (.directive none) with cursor := after }

def lexFlowStart (token : Token) (lexer : Lexer) : Step := do
  let lexer ← lexer.saveCandidate
  return { (lexer.forward 1).emit token with flowLevel := lexer.flowLevel + 1, keyAllowed := true }

def lexFlowEnd (token : Token) (lexer : Lexer) : Step := do
  let lexer ← lexer.dropCandidate
  if lexer.flowLevel = 0 then .error .malformed
  else return { (lexer.forward 1).emit token with
    flowLevel := lexer.flowLevel - 1, keyAllowed := false }

def lexFlowEntry (lexer : Lexer) : Step := do
  let lexer ← lexer.dropCandidate
  return { (lexer.forward 1).emit .flowEntry with keyAllowed := true }

def lexBlockEntry (lexer : Lexer) : Step :=
  if !lexer.inFlow && !lexer.keyAllowed then .error .malformed
  else do
    let lexer := if lexer.inFlow then lexer
      else lexer.openBlock lexer.cursor.column lexer.tokens.size .sequenceStart
    let lexer ← lexer.dropCandidate
    return { (lexer.forward 1).emit .blockEntry with keyAllowed := true }

def lexKey (lexer : Lexer) : Step :=
  if !lexer.inFlow && !lexer.keyAllowed then .error .malformed
  else do
    let lexer := if lexer.inFlow then lexer
      else lexer.openBlock lexer.cursor.column lexer.tokens.size .mappingStart
    let lexer ← { lexer with keyAllowed := !lexer.inFlow }.dropCandidate
    return (lexer.forward 1).emit .key

/-- A colon before a value. It turns the candidate on its level into a key. -/
def lexValue (lexer : Lexer) : Step :=
  match lexer.candidate? with
  | some candidate =>
      let lexer := lexer.withoutCandidate
      let lexer :=
        { lexer with tokens := lexer.tokens.insertIdxIfInBounds candidate.place .key }
      let lexer := if lexer.inFlow then lexer
        else lexer.openBlock candidate.column candidate.place .mappingStart
      .ok { (lexer.forward 1).emit .value with keyAllowed := false }
  | none =>
      if !lexer.inFlow && !lexer.keyAllowed then .error .malformed
      else do
        let lexer := if lexer.inFlow then lexer
          else lexer.openBlock lexer.cursor.column lexer.tokens.size .mappingStart
        let lexer ← { lexer with keyAllowed := !lexer.inFlow }.dropCandidate
        return (lexer.forward 1).emit .value

def lexName (token : String → Token) (lexer : Lexer) : Step := do
  let lexer ← lexer.saveCandidate
  let (name, after) := lexer.cursor.next.takeWhile isNameChar
  if name.isEmpty || !(endsToken after.head || after.head.any fun c =>
      "?:,]\x7d%@\x60".toList.contains c) then .error .malformed
  else return { lexer.emit (token (String.ofList name)) with cursor := after, keyAllowed := false }

def lexBlockScalar (folded : Bool) (lexer : Lexer) : Step := do
  let lexer ← { lexer with keyAllowed := true }.dropCandidate
  let (text, after) ← blockText folded lexer.indent lexer.cursor.next
  return { lexer.emit (.scalar (String.ofList text) false) with cursor := after }

def lexQuotedScalar (quote : Char) (lexer : Lexer) : Step := do
  let lexer ← lexer.saveCandidate
  let (text, after) ← quotedText quote (lexer.cursor.rest.length + 1) lexer.cursor.next
  return { lexer.emit (.scalar (String.ofList text) false) with
    cursor := after, keyAllowed := false }

/-- A plain scalar. A key may follow it only on a new line. -/
def lexPlainScalar (lexer : Lexer) : Step := do
  let lexer ← lexer.saveCandidate
  let (text, newLine, after) :=
    plainText lexer.inFlow (lexer.indent + 1) (lexer.cursor.rest.length + 1) [] lexer.cursor
  return { lexer.emit (.scalar (String.ofList text) true) with
    cursor := after, keyAllowed := newLine }

/-- A plain scalar may begin with the character at the cursor. -/
def beginsPlain (lexer : Lexer) (c : Char) : Bool :=
  !(endsToken (some c) || "-?:,[]\x7b\x7d#&*!|>'\"%@\x60".toList.contains c)
    || !endsToken (lexer.cursor.peek 1) && (c == '-' || !lexer.inFlow && (c == '?' || c == ':'))

/-- The next token. Tags are not supported. -/
def lexToken (lexer : Lexer) : Step := do
  let lexer ← (skipToToken (lexer.cursor.rest.length + 1) lexer).dropStale
  let lexer := lexer.unwind lexer.column
  let separated := endsToken (lexer.cursor.peek 1)
  match lexer.cursor.head with
  | none => lexer.lexEnd
  | some c =>
      if c == '%' && lexer.cursor.column == 0 then lexer.lexDirective
      else if c == '-' && lexer.cursor.column == 0 && lexer.cursor.atDocumentMark then
        lexer.lexDocumentMark .documentStart
      else if c == '.' && lexer.cursor.column == 0 && lexer.cursor.atDocumentMark then
        lexer.lexDocumentMark .documentEnd
      else if c == '[' then lexer.lexFlowStart .flowSequenceStart
      else if c == '\x7b' then lexer.lexFlowStart .flowMappingStart
      else if c == ']' then lexer.lexFlowEnd .flowSequenceEnd
      else if c == '\x7d' then lexer.lexFlowEnd .flowMappingEnd
      else if c == ',' then lexer.lexFlowEntry
      else if c == '-' && separated then lexer.lexBlockEntry
      else if c == '?' && (lexer.inFlow || separated) then lexer.lexKey
      else if c == ':' && (lexer.inFlow || separated) then lexer.lexValue
      else if c == '*' then lexer.lexName .alias
      else if c == '&' then lexer.lexName .anchor
      else if c == '|' && !lexer.inFlow then lexer.lexBlockScalar false
      else if c == '>' && !lexer.inFlow then lexer.lexBlockScalar true
      else if c == '\'' || c == '"' then lexer.lexQuotedScalar c
      else if lexer.beginsPlain c then lexer.lexPlainScalar
      else if c == '!' then .error .unsupported
      else .error .malformed

/-- The number of tokens that are ready: those before every candidate that is left. -/
def readyCount (lexer : Lexer) : Nat :=
  match lexer.dropStale with
  | .ok lexer => lexer.candidates.foldl (fun count entry => min count entry.2.place)
      lexer.tokens.size
  | .error _ => 0

def lexAll : Nat → Lexer → Tokens
  | 0, _ => ⟨[], .malformed⟩
  | fuel + 1, lexer =>
      match lexer.lexToken with
      | .error fault => ⟨lexer.tokens.toList.take lexer.readyCount, fault⟩
      | .ok lexer => if lexer.finished then ⟨lexer.tokens.toList, .malformed⟩ else lexAll fuel lexer

end Lexer

/-- A character that may occur in a YAML text. -/
def isAdmitted (c : Char) : Bool :=
  let n := c.toNat
  n == 0x09 || n == 0x0A || n == 0x0D || (0x20 ≤ n && n ≤ 0x7E) || n == 0x85
    || (0xA0 ≤ n && n ≤ 0xFFFD) || 0x10000 ≤ n

/-- The tokens of a text. A byte order mark at its start is skipped. -/
def Tokens.ofText (text : List Char) : Tokens :=
  if text.all isAdmitted then
    let start : Cursor := ⟨text, 0, 0, 0⟩
    let start := if start.head == some '\uFEFF' then start.next else start
    Lexer.lexAll (text.length + 2) { cursor := start }
  else ⟨[], .malformed⟩

end TreeScript.Yaml
