/-!
# A position in a YAML text

Reading a YAML text needs the index, the line and the column of every character. Five characters
end a line; CR LF counts as one line end. A byte order mark takes up no column.
-/

namespace TreeScript.Yaml

/-- Why a text denotes no datum. -/
inductive Fault where
  /-- The text is no YAML text of one document. -/
  | malformed
  /-- The text has an explicit tag, or an escape that stands for half of a character. -/
  | unsupported
  | tooManyDigits (count : Nat)
  /-- A number has a prefix for its base and no digits. -/
  | noDigits (base : Nat)
  /-- An escape stands for a code point past the last. -/
  | codeOutOfRange
  /-- An escape stands for a number that is not below 2 to the power of 31. -/
  | codeTooLarge
  /-- A double to base sixty has a part whose weight is too large for a double. -/
  | weightTooLarge
deriving Repr, DecidableEq

/-- What is left to read and where it begins. -/
structure Cursor where
  rest : List Char
  index : Nat := 0
  line : Nat := 0
  column : Nat := 0

def isBreak (c : Char) : Bool :=
  c == '\n' || c == '\r' || c == '\x85' || c == '\u2028' || c == '\u2029'

def endsLine (next : Option Char) : Bool := next.all isBreak

def endsWord (next : Option Char) : Bool := next.all fun c => isBreak c || c == ' '

/-- The end of the text or of a line, a space or a tab. -/
def endsToken (next : Option Char) : Bool := next.all fun c => isBreak c || c == ' ' || c == '\t'

namespace Cursor

def peek (cursor : Cursor) (ahead : Nat) : Option Char := cursor.rest[ahead]?

def head (cursor : Cursor) : Option Char := cursor.rest.head?

def next (cursor : Cursor) : Cursor :=
  match cursor.rest with
  | [] => cursor
  | c :: rest =>
      if isBreak c && !(c == '\r' && rest.head? == some '\n') then
        ⟨rest, cursor.index + 1, cursor.line + 1, 0⟩
      else ⟨rest, cursor.index + 1, cursor.line, cursor.column + if c == '\uFEFF' then 0 else 1⟩

def forward : Nat → Cursor → Cursor
  | 0, cursor => cursor
  | count + 1, cursor => forward count cursor.next

def takeWhile (cursor : Cursor) (test : Char → Bool) : List Char × Cursor :=
  let taken := cursor.rest.takeWhile test
  (taken, cursor.forward taken.length)

def skipWhile (cursor : Cursor) (test : Char → Bool) : Cursor := (cursor.takeWhile test).2

/-- A line end and the cursor after it. Line and paragraph separators stay what they are, every
other line end is a line feed. -/
def takeBreak (cursor : Cursor) : Option Char × Cursor :=
  match cursor.rest with
  | '\r' :: '\n' :: _ => (some '\n', cursor.forward 2)
  | c :: _ =>
      if c == '\u2028' || c == '\u2029' then (some c, cursor.next)
      else if isBreak c then (some '\n', cursor.next)
      else (none, cursor)
  | [] => (none, cursor)

/-- Three dashes or three points follow, and then nothing that would continue a word. -/
def atDocumentMark (cursor : Cursor) : Bool :=
  (cursor.rest.take 3 == ['-', '-', '-'] || cursor.rest.take 3 == ['.', '.', '.'])
    && endsToken (cursor.peek 3)

def skipComment (cursor : Cursor) : Cursor :=
  if cursor.head == some '#' then cursor.skipWhile (!isBreak ·) else cursor

/-- The cursor after the rest of a line that may hold only a comment. -/
def endLine (cursor : Cursor) : Except Fault Cursor :=
  let cursor := (cursor.skipWhile (· == ' ')).skipComment
  if endsLine cursor.head then .ok cursor.takeBreak.2 else .error .malformed

end Cursor

end TreeScript.Yaml
