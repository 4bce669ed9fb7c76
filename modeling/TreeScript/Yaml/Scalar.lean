import TreeScript.Json
import TreeScript.Yaml.Cursor

/-!
# The meaning of plain scalars

A plain scalar is null, a boolean, an integer or a double if its text has the form of one, in the
sense of version 1.1 of the format; otherwise it is a text. Underscores separate digits, a leading
zero means octal, and colons separate digits to base sixty. A double has a point, and the sign of
its exponent is never left out.
-/

namespace TreeScript.Yaml

/-- What a plain scalar stands for. -/
inductive Plain where
  | datum (value : Data)
  /-- As a key: the entries of its value are merged into the mapping. -/
  | merge
  /-- As a key a text; it has no meaning elsewhere. -/
  | default
  | faulty (fault : Fault)

def nullWords : List String := ["", "~", "null", "Null", "NULL"]

def trueWords : List String := ["yes", "Yes", "YES", "true", "True", "TRUE", "on", "On", "ON"]

def falseWords : List String := ["no", "No", "NO", "false", "False", "FALSE", "off", "Off", "OFF"]

def isDigitOf (base : Nat) (c : Char) : Bool := (Json.hexValue? c).any (· < base)

def isDigitOrLine (base : Nat) (c : Char) : Bool := isDigitOf base c || c == '_'

/-- The text is not empty and all of its characters are of a class. -/
def consistsOf (test : Char → Bool) (text : List Char) : Bool := !text.isEmpty && text.all test

/-- The text begins with a digit and goes on with digits and underscores. -/
def isDecimal : List Char → Bool
  | c :: rest => c.isDigit && rest.all (isDigitOrLine 10)
  | [] => false

/-- The pieces of a text between characters of one kind. -/
def splitAtChar (separator : Char) : List Char → List (List Char)
  | [] => [[]]
  | c :: rest =>
      if c == separator then [] :: splitAtChar separator rest
      else match splitAtChar separator rest with
        | [] => [[c]]
        | piece :: pieces => (c :: piece) :: pieces

/-- A digit to base sixty: one or two decimal digits, below sixty. -/
def isSixtieth : List Char → Bool
  | [a] => a.isDigit
  | [a, b] => '0' ≤ a && a ≤ '5' && b.isDigit
  | _ => false

/-- Digits to base sixty, of which the first may be any number. -/
def isSexagesimal (text : List Char) : Bool :=
  match splitAtChar ':' text with
  | first :: rest => isDecimal first && !rest.isEmpty && rest.all isSixtieth
  | [] => false

def withoutLines (text : List Char) : List Char := text.filter (· != '_')

def baseValue (base : Nat) (digits : List Char) : Nat :=
  digits.foldl (fun value c => value * base + (Json.hexValue? c).getD 0) 0

def ofBase (negative : Bool) (base : Nat) (digits : List Char) : Plain :=
  if digits.isEmpty then .faulty (.noDigits base)
  else .datum (.int (Numeral.signed negative (baseValue base digits)))

/-- The integer with decimal digits, of which there are not too many. -/
def ofDecimalDigits (digits : List Char) : Except Fault Nat :=
  if Numeral.digitLimit < digits.length then .error (.tooManyDigits digits.length)
  else .ok (baseValue 10 digits)

/-- The integer that a text without its sign has the form of. -/
def plainInteger? (negative : Bool) (body : List Char) : Option Plain :=
  let finish (value : Except Fault Nat) : Plain :=
    match value with
    | .ok n => .datum (.int (Numeral.signed negative n))
    | .error fault => .faulty fault
  match body with
  | '0' :: 'b' :: digits =>
      if consistsOf (isDigitOrLine 2) digits then some (ofBase negative 2 (withoutLines digits))
      else none
  | '0' :: 'x' :: digits =>
      if consistsOf (isDigitOrLine 16) digits then some (ofBase negative 16 (withoutLines digits))
      else none
  | '0' :: digits =>
      if digits.all (isDigitOrLine 8) then
        some (.datum (.int (Numeral.signed negative (baseValue 8 (withoutLines digits)))))
      else none
  | _ =>
      if isDecimal body then some (finish (ofDecimalDigits (withoutLines body)))
      else if isSexagesimal body then
        let digits := (splitAtChar ':' (withoutLines body)).mapM ofDecimalDigits
        some (finish (digits.map fun digits =>
          digits.foldl (fun value digit => value * 60 + digit) 0))
      else none

def isExponent : List Char → Bool
  | [] => true
  | mark :: sign :: digits =>
      (mark == 'e' || mark == 'E') && (sign == '+' || sign == '-') && consistsOf Char.isDigit digits
  | _ => false

def isFraction (text : List Char) : Bool :=
  isExponent (text.dropWhile (isDigitOrLine 10))

/-- The double that a text denotes once its underscores are dropped. -/
def readDouble (text : List Char) : Float :=
  (Numeral.readReal? (withoutLines text)).getD Numeral.notANumber

/-- The value of parts to base sixty, the last of which may have a fraction. The weight of every
part has to be within the doubles, whatever the part is. -/
def sexagesimalValue (parts : List Float) : Except Fault Float := do
  let step (sum : Float × Nat) (part : Float) : Except Fault (Float × Nat) :=
    match Numeral.ofInteger? sum.2 with
    | some weight => .ok (sum.1 + part * weight, sum.2 * 60)
    | none => .error .weightTooLarge
  return (← parts.reverse.foldlM step (0, 1)).1

def signedDouble (negative : Bool) (x : Float) : Plain :=
  .datum (.real (if negative then -x else x))

/-- The double that a text without its sign has the form of. Some forms allow no sign. -/
def plainDouble? (hasSign negative : Bool) (body : List Char) : Option Plain :=
  let (whole, rest) := body.span (· != '.')
  match rest with
  | [] => none
  | _ :: fraction =>
      if whole.isEmpty then
        let word := String.ofList fraction
        if word == "inf" || word == "Inf" || word == "INF" then
          some (signedDouble negative (Numeral.infinity false))
        else if hasSign then none
        else if word == "nan" || word == "NaN" || word == "NAN" then
          some (.datum (.real Numeral.notANumber))
        else if isFraction fraction && fraction.head?.any Char.isDigit then
          some (signedDouble negative (readDouble body))
        else none
      else if isDecimal whole && isFraction fraction then
        some (signedDouble negative (readDouble body))
      else if isSexagesimal whole && fraction.all (isDigitOrLine 10) then
        match sexagesimalValue ((splitAtChar ':' body).map readDouble) with
        | .ok value => some (signedDouble negative value)
        | .error fault => some (.faulty fault)
      else none

def Plain.ofText (text : String) : Plain :=
  if nullWords.contains text then .datum .null
  else if trueWords.contains text then .datum (.bool true)
  else if falseWords.contains text then .datum (.bool false)
  else if text == "<<" then .merge
  else if text == "=" then .default
  else
    let (hasSign, negative, body) := match text.toList with
      | '-' :: body => (true, true, body)
      | '+' :: body => (true, false, body)
      | body => (false, false, body)
    ((plainDouble? hasSign negative body).or (plainInteger? negative body)).getD
      (.datum (.text text))

end TreeScript.Yaml
