import TreeScript.Numeral.Integer
import TreeScript.Numeral.Shortest

/-!
# Doubles as text

A double is written with its shortest digits: positionally while the point falls no more than
sixteen places after the first digit and no more than three before it, otherwise with a signed
exponent of at least two digits. Reading takes padding, a sign, digits of any script with single
underscores between them, a point, an exponent, and the words for infinity and for no number.
-/

namespace TreeScript.Numeral

/-- The exponent part: a sign and at least two digits. -/
def exponentText (e : Int) : List Char :=
  let digits := e.natAbs.repr.toList
  'e' :: (if e < 0 then '-' else '+') :: (if digits.length < 2 then '0' :: digits else digits)

def layout (d : Decimal) : List Char :=
  let digits := d.digits.repr.toList
  let point := digits.length + d.exponent
  if -4 < point ∧ point ≤ 16 then
    if point ≤ 0 then '0' :: '.' :: (List.replicate (-point).toNat '0' ++ digits)
    else if digits.length ≤ point then
      digits ++ List.replicate d.exponent.toNat '0' ++ ['.', '0']
    else digits.take point.toNat ++ '.' :: digits.drop point.toNat
  else
    let fraction := digits.drop 1
    digits.take 1 ++ (if fraction.isEmpty then [] else '.' :: fraction) ++ exponentText (point - 1)

def realText (x : Float) : String :=
  match view x with
  | .nan => "nan"
  | .infinite negative => if negative then "-inf" else "inf"
  | .finite negative m q =>
      let digits := if m = 0 then ['0', '.', '0'] else layout (shortest m q)
      String.ofList (if negative then '-' :: digits else digits)

/-- Upper and lower case of a Latin letter are not told apart. -/
def sameWord (word : String) (text : List Char) : Bool :=
  text.map Char.toLower == word.toList

/-- An exponent part up to the end of the text; no exponent part means zero. -/
def readExponent : List Char → Option Int
  | [] => some 0
  | c :: rest =>
      if c = 'e' ∨ c = 'E' then
        let (negative, body) := takeSign rest
        match spanDigits body with
        | (digits@(_ :: _), []) => some (signed negative (digitsValue digits))
        | _ => none
      else none

/-- A point with digits on at least one side, and an exponent part. -/
def readDecimal (negative : Bool) (text : List Char) : Option Float :=
  let (whole, rest) := spanDigits text
  let (fraction, rest) := match rest with
    | '.' :: rest => spanDigits rest
    | rest => ([], rest)
  if (whole ++ fraction).isEmpty then none
  else (readExponent rest).map fun exponent =>
    let digits := (whole ++ fraction).dropWhile (· == 0)
    ofDecimal negative (digitsValue digits) digits.length (exponent - fraction.length)

def readReal? (text : List Char) : Option Float :=
  (dropUnderscores (trimPadding text)).bind fun text =>
    let (negative, body) := takeSign text
    if sameWord "inf" body || sameWord "infinity" body then some (infinity negative)
    else if sameWord "nan" body then some notANumber
    else readDecimal negative body

end TreeScript.Numeral
