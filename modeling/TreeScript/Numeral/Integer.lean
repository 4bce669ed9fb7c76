import TreeScript.Text.Blank
import TreeScript.Text.DecimalDigit

/-!
# Integers as text

Integers are unbounded, but their decimal text is not: no text of more than 4300 digits is read
and none is written. Reading takes padding at both ends, a sign, digits of any script, and single
underscores between digits.
-/

namespace TreeScript.Numeral

/-- The most decimal digits that a text is converted to or from. -/
def digitLimit : Nat := 4300

def writable (i : Int) : Bool := decide (i.natAbs < Nat.pow 10 digitLimit)

/-- The decimal digits of an integer, after a minus sign if it is negative. -/
def integerText (i : Int) : String :=
  match i with
  | .ofNat n => n.repr
  | .negSucc n => "-" ++ (n + 1).repr

/-- Why a text denotes no integer. -/
inductive IntegerFault where
  | malformed
  | tooManyDigits (count : Nat)
deriving Repr, DecidableEq

def tooManyDigitsMessage (count : Nat) : String :=
  "Exceeds the limit (4300 digits) for integer string conversion: value has " ++ count.repr
    ++ " digits; use sys.set_int_max_str_digits() to increase the limit"

def unwritableMessage : String :=
  "Exceeds the limit (4300 digits) for integer string conversion; "
    ++ "use sys.set_int_max_str_digits() to increase the limit"

/-- The number written by digits, the most significant first. -/
def digitsValue (digits : List Nat) : Nat :=
  digits.foldl (fun value digit => 10 * value + digit) 0

/-- Digits are converted only up to the limit. -/
def boundedValue (digits : List Nat) : Except IntegerFault Nat :=
  if digitLimit < digits.length then .error (.tooManyDigits digits.length)
  else .ok (digitsValue digits)

/-- Blanks that may stand around a number; the four separators U+001C to U+001F may not. -/
def isPadding (c : Char) : Bool :=
  Text.isBlank c && !(0x1C ≤ c.toNat && c.toNat ≤ 0x1F)

def trimPadding (text : List Char) : List Char :=
  ((text.dropWhile isPadding).reverse.dropWhile isPadding).reverse

/-- The digits at the start of a text and what follows them. -/
def spanDigits : List Char → List Nat × List Char
  | [] => ([], [])
  | c :: rest =>
      match Text.digitValue? c with
      | none => ([], c :: rest)
      | some d => (d :: (spanDigits rest).1, (spanDigits rest).2)

/-- A sign, if one is there, and what follows it. -/
def takeSign : List Char → Bool × List Char
  | '-' :: rest => (true, rest)
  | '+' :: rest => (false, rest)
  | text => (false, text)

/-- Underscores are allowed only between two digits. -/
def underscoresSeparate : List Char → Bool
  | [] => true
  | [c] => c != '_'
  | a :: b :: rest =>
      (if a == '_' then Text.isDigit b else if b == '_' then Text.isDigit a else true)
        && underscoresSeparate (b :: rest)

/-- The text without its underscores, if each of them separates two digits. -/
def dropUnderscores (text : List Char) : Option (List Char) :=
  match text with
  | '_' :: _ => none
  | _ => if underscoresSeparate text then some (text.filter (· != '_')) else none

def signed (negative : Bool) (n : Nat) : Int :=
  if negative then -(n : Int) else n

def readInteger (text : List Char) : Except IntegerFault Int :=
  let (negative, body) := takeSign (trimPadding text)
  match dropUnderscores body with
  | none => .error .malformed
  | some body =>
      match spanDigits body with
      | (digits@(_ :: _), []) => (boundedValue digits).map (signed negative)
      | _ => .error .malformed

/-- The integer at the start of a text: blanks of any kind, a sign and digits. What follows the
digits is not looked at. -/
def leadingInteger? (text : List Char) : Option (Except IntegerFault Int) :=
  let (negative, body) := takeSign (Text.trimLeft text)
  match (spanDigits body).1 with
  | [] => none
  | digits => some ((boundedValue digits).map (signed negative))

end TreeScript.Numeral
