import TreeScript.Data

/-!
# JSON

A JSON text is read from left to right with the position counted in characters. The first character
that cannot be part of a value decides the fault and its position. The words for no number and for
the infinities are accepted as numbers. Texts are sequences of characters, so an escape that is half
of a pair and stands alone is refused. A name that occurs twice in an object keeps its first place
and its last value.
-/

namespace TreeScript.Json

/-- What is wrong at a position. -/
inductive Problem where
  | expectedValue
  | expectedName
  | expectedColon
  | expectedComma
  | unterminatedText
  | controlCharacter
  | invalidEscape
  | invalidUnicodeEscape
  | extraData
  | byteOrderMark
deriving Repr, DecidableEq

def Problem.message : Problem → String
  | .expectedValue => "Expecting value"
  | .expectedName => "Expecting property name enclosed in double quotes"
  | .expectedColon => "Expecting ':' delimiter"
  | .expectedComma => "Expecting ',' delimiter"
  | .unterminatedText => "Unterminated string starting at"
  | .controlCharacter => "Invalid control character at"
  | .invalidEscape => "Invalid \\escape"
  | .invalidUnicodeEscape => "Invalid \\uXXXX escape"
  | .extraData => "Extra data"
  | .byteOrderMark => "Unexpected UTF-8 BOM (decode using utf-8-sig)"

/-- Why a text is not decoded: it is no JSON text, it holds an integer of too many digits, or half
of a character stands at a position. -/
inductive Fault where
  | malformed (problem : Problem) (position : Nat)
  | tooManyDigits (count : Nat)
  | halfCharacter (position : Nat)
deriving Repr, DecidableEq

/-- What is left to read, and how many characters have been read before it. -/
structure Cursor where
  rest : List Char
  position : Nat

abbrev Reading (α : Type) := Except Fault (α × Cursor)

def Cursor.fail {α : Type} (cursor : Cursor) (problem : Problem) : Except Fault α :=
  .error (.malformed problem cursor.position)

def Cursor.advance (cursor : Cursor) (count : Nat) (rest : List Char) : Cursor :=
  ⟨rest, cursor.position + count⟩

/-- Space, tab, line feed and carriage return may stand between tokens. -/
def isSpace (c : Char) : Bool := c == ' ' || c == '\t' || c == '\n' || c == '\r'

def Cursor.skipSpaces (cursor : Cursor) : Cursor :=
  let rest := cursor.rest.dropWhile isSpace
  cursor.advance (cursor.rest.length - rest.length) rest

def hexValue? (c : Char) : Option Nat :=
  if '0' ≤ c ∧ c ≤ '9' then some (c.toNat - 48)
  else if 'a' ≤ c ∧ c ≤ 'f' then some (c.toNat - 87)
  else if 'A' ≤ c ∧ c ≤ 'F' then some (c.toNat - 55)
  else none

def hexUnit? (a b c d : Char) : Option Nat := do
  let a ← hexValue? a
  let b ← hexValue? b
  let c ← hexValue? c
  let d ← hexValue? d
  return ((a * 16 + b) * 16 + c) * 16 + d

def escapeLetter? : Char → Option Char
  | '"' => some '"'
  | '\\' => some '\\'
  | '/' => some '/'
  | 'b' => some '\x08'
  | 'f' => some '\x0c'
  | 'n' => some '\n'
  | 'r' => some '\r'
  | 't' => some '\t'
  | _ => none

/-- The first half of a pair of units that encode one character. -/
def isLeadUnit (unit : Nat) : Bool := 0xD800 ≤ unit && unit < 0xDC00

def isTrailUnit (unit : Nat) : Bool := 0xDC00 ≤ unit && unit < 0xE000

/-- The character of the unit at a position. Half of a pair stands for no character. -/
def unitChar (position unit : Nat) : Except Fault Char :=
  if isLeadUnit unit || isTrailUnit unit then .error (.halfCharacter position)
  else .ok (Char.ofNat unit)

def pairChar (lead trail : Nat) : Char :=
  Char.ofNat (0x10000 + (lead - 0xD800) * 0x400 + (trail - 0xDC00))

def prepend (c : Char) (reading : Reading (List Char)) : Reading (List Char) :=
  reading.map fun (chars, cursor) => (c :: chars, cursor)

/-- The characters of a text up to its closing quote. The opening quote stands at `start`, and
`position` counts the characters before those given. -/
def textBody (start position : Nat) : List Char → Reading (List Char)
  | [] => .error (.malformed .unterminatedText start)
  | '"' :: rest => .ok ([], ⟨rest, position + 1⟩)
  | ['\\'] => .error (.malformed .unterminatedText start)
  | '\\' :: 'u' :: a :: b :: c :: d :: more =>
      match hexUnit? a b c d, more with
      | some lead, '\\' :: 'u' :: e :: f :: g :: h :: next :: rest =>
          match isLeadUnit lead, (hexUnit? e f g h).filter isTrailUnit with
          | true, some trail =>
              prepend (pairChar lead trail) (textBody start (position + 12) (next :: rest))
          | _, _ =>
              (unitChar position lead).bind fun c => prepend c
                (textBody start (position + 6) ('\\' :: 'u' :: e :: f :: g :: h :: next :: rest))
      | some unit, next :: rest =>
          (unitChar position unit).bind fun c => prepend c
            (textBody start (position + 6) (next :: rest))
      | _, _ => .error (.malformed .invalidUnicodeEscape (position + 1))
  | '\\' :: 'u' :: _ => .error (.malformed .invalidUnicodeEscape (position + 1))
  | '\\' :: letter :: rest =>
      match escapeLetter? letter with
      | some c => prepend c (textBody start (position + 2) rest)
      | none => .error (.malformed .invalidEscape position)
  | c :: rest =>
      if c.toNat < 0x20 then .error (.malformed .controlCharacter position)
      else prepend c (textBody start (position + 1) rest)

def readText (start : Nat) (cursor : Cursor) : Reading String :=
  (textBody start cursor.position cursor.rest).map fun (chars, cursor) =>
    (String.ofList chars, cursor)

/-- The digits at the start of a text and what follows them; only the ten digits of ASCII count. -/
def spanAscii (text : List Char) : List Char × List Char := text.span Char.isDigit

/-- The whole part of a number: a zero, or digits that do not begin with zero. -/
def wholePart : List Char → List Char × List Char
  | '0' :: rest => (['0'], rest)
  | text => spanAscii text

/-- The fraction of a number: a point with digits after it. -/
def fractionPart : List Char → List Char × List Char
  | '.' :: rest => match spanAscii rest with
    | ([], _) => ([], '.' :: rest)
    | (digits, rest) => ('.' :: digits, rest)
  | text => ([], text)

/-- The exponent of a number: its mark, perhaps a sign, and digits. -/
def exponentPart (text : List Char) : List Char × List Char :=
  match text with
  | mark :: rest =>
      if mark = 'e' ∨ mark = 'E' then
        let (sign, body) := match rest with
          | '-' :: body => (['-'], body)
          | '+' :: body => (['+'], body)
          | body => ([], body)
        match spanAscii body with
        | ([], _) => ([], text)
        | (digits, rest) => (mark :: sign ++ digits, rest)
      else ([], text)
  | [] => ([], [])

/-- The longest number at the cursor. It is an integer if it has neither fraction nor exponent. -/
def readNumber (cursor : Cursor) : Reading Data :=
  let (sign, body) := match cursor.rest with
    | '-' :: body => (['-'], body)
    | body => ([], body)
  let (whole, rest) := wholePart body
  if whole.isEmpty then cursor.fail .expectedValue
  else
    let (fraction, rest) := fractionPart rest
    let (exponent, rest) := exponentPart rest
    let token := sign ++ whole ++ fraction ++ exponent
    let after := cursor.advance token.length rest
    if fraction.isEmpty && exponent.isEmpty then
      match Numeral.readInteger token with
      | .ok i => .ok (.int i, after)
      | .error (.tooManyDigits count) => .error (.tooManyDigits count)
      | .error .malformed => cursor.fail .expectedValue
    else
      match Numeral.readReal? token with
      | some x => .ok (.real x, after)
      | none => cursor.fail .expectedValue

def words : List (String × Data) :=
  [("null", .null), ("true", .bool true), ("false", .bool false), ("NaN", .real Numeral.notANumber),
   ("Infinity", .real (Numeral.infinity false)), ("-Infinity", .real (Numeral.infinity true))]

def word? (text : List Char) : Option (Data × Nat) :=
  (words.find? fun word => word.1.toList.isPrefixOf text).map fun word => (word.2, word.1.length)

mutual

def readValue : Nat → Cursor → Reading Data
  | 0, cursor => cursor.fail .expectedValue
  | fuel + 1, cursor =>
      match cursor.rest with
      | '"' :: rest =>
          (readText cursor.position (cursor.advance 1 rest)).map fun (s, cursor) =>
            (.text s, cursor)
      | '[' :: rest =>
          let inside := (cursor.advance 1 rest).skipSpaces
          match inside.rest with
          | ']' :: rest => .ok (.list [], inside.advance 1 rest)
          | _ => (readItems fuel inside).map fun (items, cursor) => (.list items, cursor)
      | '\x7b' :: rest =>
          let inside := (cursor.advance 1 rest).skipSpaces
          match inside.rest with
          | '\x7d' :: rest => .ok (.dict [], inside.advance 1 rest)
          | _ => (readMembers fuel inside).map fun (members, cursor) => (.dictOf members, cursor)
      | text =>
          match word? text with
          | some (value, length) => .ok (value, cursor.advance length (text.drop length))
          | none => readNumber cursor

def readItems : Nat → Cursor → Except Fault (List Data × Cursor)
  | 0, cursor => cursor.fail .expectedValue
  | fuel + 1, cursor => do
      let (item, after) ← readValue fuel cursor
      let after := after.skipSpaces
      match after.rest with
      | ']' :: rest => .ok ([item], after.advance 1 rest)
      | ',' :: rest =>
          let (items, cursor) ← readItems fuel (after.advance 1 rest).skipSpaces
          .ok (item :: items, cursor)
      | _ => after.fail .expectedComma

def readMembers : Nat → Cursor → Except Fault (List (Data × Data) × Cursor)
  | 0, cursor => cursor.fail .expectedName
  | fuel + 1, cursor =>
      match cursor.rest with
      | '"' :: rest => do
          let (name, after) ← readText cursor.position (cursor.advance 1 rest)
          let colon := after.skipSpaces
          match colon.rest with
          | ':' :: rest =>
              let (value, after) ← readValue fuel (colon.advance 1 rest).skipSpaces
              let after := after.skipSpaces
              match after.rest with
              | '\x7d' :: rest => .ok ([(.text name, value)], after.advance 1 rest)
              | ',' :: rest =>
                  let (members, cursor) ← readMembers fuel (after.advance 1 rest).skipSpaces
                  .ok ((.text name, value) :: members, cursor)
              | _ => after.fail .expectedComma
          | _ => colon.fail .expectedColon
      | _ => cursor.fail .expectedName

end

def decode (text : List Char) : Except Fault Data :=
  match text with
  | '\uFEFF' :: _ => .error (.malformed .byteOrderMark 0)
  | _ => do
      let (value, after) ← readValue (2 * text.length + 2) (Cursor.skipSpaces ⟨text, 0⟩)
      let rest := after.skipSpaces
      if rest.rest.isEmpty then return value
      rest.fail .extraData

def lineColumn (text : List Char) (position : Nat) : Nat × Nat :=
  let before := text.take position
  (before.count '\n' + 1, (before.reverse.takeWhile (· != '\n')).length + 1)

def Fault.message (text : List Char) : Fault → String
  | .tooManyDigits count => Numeral.tooManyDigitsMessage count
  | .halfCharacter position => "half of a character: char " ++ position.repr
  | .malformed problem position =>
      let (line, column) := lineColumn text position
      problem.message ++ ": line " ++ line.repr ++ " column " ++ column.repr ++ " (char "
        ++ position.repr ++ ")"

end TreeScript.Json
