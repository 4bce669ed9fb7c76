import TreeScript.Numeral.RealText

/-!
# Numbers

A number is an unbounded integer or a double. Integers stay exact: sums, differences and products
of integers are integers, and a quotient that comes out integral is given as an integer. An
operation on an integer and a double takes the double nearest to the integer; it fails when the
integer is too large for one.
-/

namespace TreeScript

open Numeral

/-- A number of a document or a program. -/
inductive Number where
  | int (value : Int)
  | real (value : Float)

/-- What stops an operation on numbers. -/
inductive ArithmeticFault where
  | integerTooLarge
  | quotientTooLarge
  | infinityToInteger
  | countTooLarge
  | textTooLong
deriving Repr, DecidableEq

def ArithmeticFault.message : ArithmeticFault → String
  | .integerTooLarge => "int too large to convert to float"
  | .quotientTooLarge => "integer division result too large for a float"
  | .infinityToInteger => "cannot convert float infinity to integer"
  | .countTooLarge => "cannot fit 'int' into an index-sized integer"
  | .textTooLong => "repeated string is too long"

namespace Number

def toReal : Number → Except ArithmeticFault Float
  | int i => (ofInteger? i).elim (.error .integerTooLarge) .ok
  | real x => .ok x

/-- An operation that is exact on two integers and rounds on doubles. -/
def combine (onInts : Int → Int → Int) (onReals : Float → Float → Float) :
    Number → Number → Except ArithmeticFault Number
  | int a, int b => .ok (int (onInts a b))
  | a, b => do
      let x ← a.toReal
      let y ← b.toReal
      return real (onReals x y)

def add : Number → Number → Except ArithmeticFault Number := combine (· + ·) (· + ·)

def sub : Number → Number → Except ArithmeticFault Number := combine (· - ·) (· - ·)

def mul : Number → Number → Except ArithmeticFault Number := combine (· * ·) (· * ·)

def sum (numbers : List Number) : Except ArithmeticFault Number :=
  numbers.foldlM add (int 0)

def isZero : Number → Bool
  | int i => i == 0
  | real x => x == 0

/-- The sign bit: negative zero is negative. -/
def isNegative : Number → Bool
  | int i => i < 0
  | real x => match view x with
    | .nan => false
    | .infinite negative => negative
    | .finite negative _ _ => negative

def isNaN : Number → Bool
  | int _ => false
  | real x => view x == .nan

/-- Equality of values: an integer equals a double exactly when it is its value. -/
def same : Number → Number → Bool
  | int a, int b => a == b
  | int a, real y => (view y).compareInteger? a == some .eq
  | real x, int b => (view x).compareInteger? b == some .eq
  | real x, real y => x == y

/-- Greater than zero; what is no number is not. -/
def isPositive : Number → Bool
  | int i => 0 < i
  | real x => 0 < x

/-- An integral double as the integer it is; every other number as itself. -/
def normalize : Number → Number
  | int i => int i
  | real x =>
      if (view x).isIntegral then ((view x).truncate?).elim (real x) int else real x

def quotient : Number → Number → Except ArithmeticFault Number
  | int a, int b => (ofQuotient? a b).elim (.error .quotientTooLarge) (.ok ∘ real)
  | a, b => do
      let x ← a.toReal
      let y ← b.toReal
      return real (x / y)

/-- Division. By zero it gives an infinity signed by both operands, or no number when the dividend
is zero or no number; by all else it gives the nearest double, as an integer if it is integral. -/
def div (a b : Number) : Except ArithmeticFault Number :=
  if b.isZero then
    if a.isZero then .ok (real notANumber)
    else do
      discard a.toReal
      if a.isNaN then return real notANumber
      return real (infinity (a.isNegative != b.isNegative))
  else (quotient a b).map normalize

/-- The integer next to a number toward zero, if there is one. -/
def truncate? : Number → Option Int
  | int i => some i
  | real x => (view x).truncate?

/-- The integer that the number is, if it is one. -/
def integer? : Number → Option Int
  | int i => some i
  | real x => if (view x).isIntegral then (view x).truncate? else none

def writable : Number → Bool
  | int i => Numeral.writable i
  | real _ => true

def text : Number → String
  | int i => integerText i
  | real x => realText x

/-- The text shown to users: an integral double looks like an integer. -/
def display : Number → String
  | int i => integerText i
  | real x => match view x with
    | .nan => "NaN"
    | .infinite negative => if negative then "-Infinity" else "Infinity"
    | .finite .. => (real x).normalize.text

end Number

/-- Counts of repetitions and lengths of texts stay below this. -/
def indexLimit : Nat := Nat.pow 2 63

/-- The length a text reaches when it is repeated `count` times, which need not be an integer. -/
def repeatedLength (length : Nat) : Number → Except ArithmeticFault Number :=
  (Number.int length).mul

/-- A text repeated `count` times: as many characters as the product of its length with the count,
rounded down, taken from endless repetitions of the text. -/
def repeatText (text : String) (count : Number) : Except ArithmeticFault String := do
  let chars := text.toList
  let target ← repeatedLength chars.length count
  if chars.isEmpty || !target.isPositive then return ""
  match target.truncate? with
  | none => throw .infinityToInteger
  | some target =>
      let copies := target.toNat / chars.length + 1
      if indexLimit ≤ copies then throw .countTooLarge
      if indexLimit ≤ copies * chars.length then throw .textTooLong
      return String.ofList ((List.replicate copies chars).flatten.take target.toNat)

end TreeScript
