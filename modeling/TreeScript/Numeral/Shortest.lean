import TreeScript.Numeral.Double

/-!
# The shortest decimal of a double

The text of a double has the fewest digits that read back to it. Those digits are found by trying
decimal grids from coarse to fine: on each one, only the two neighbours of the exact value can lie
among the reals that round to it. Of two such neighbours the nearer one is taken, on a tie the even
one. All comparisons are between natural numbers.
-/

namespace TreeScript.Numeral

/-- The number `digits * 10 ^ exponent`. -/
structure Decimal where
  digits : Nat
  exponent : Int
deriving Repr, DecidableEq

def compareScaled (a : Nat) (i : Int) (n : Nat) (j : Int) : Ordering :=
  compare (a * Nat.pow 10 i.toNat * down j) (n * up j * Nat.pow 10 (-i).toNat)

/-- The decimal lies among the reals that round to `m * 2 ^ q`. The interval reaches halfway to
each neighbour; its ends belong to it when `m` is even. Below a power of two the neighbours are
twice as close. -/
def readsBack (m : Nat) (q : Int) (d : Decimal) : Bool :=
  let narrow := m = Nat.pow 2 52 ∧ q ≠ -1074
  let low := if narrow then 4 * m - 1 else 4 * m - 2
  let lower := compareScaled d.digits d.exponent low (q - 2)
  let upper := compareScaled d.digits d.exponent (4 * m + 2) (q - 2)
  let closed := m % 2 == 0
  (lower == .gt || closed && lower == .eq) && (upper == .lt || closed && upper == .eq)

/-- The position of the decimal point: the least `k` with `m * 2 ^ q < 10 ^ k`. -/
def pointPosition (m : Nat) (q : Int) : Int :=
  let guess := ((m.log2 : Int) + q) * 30103 / 100000
  let below (k : Int) : Bool := compareScaled 1 k m q == .gt
  if below guess then guess else if below (guess + 1) then guess + 1 else guess + 2

/-- The decimal of `count` digits nearest to `m * 2 ^ q` that reads back to it. -/
def onGrid? (m : Nat) (q point : Int) (count : Nat) : Option Decimal :=
  let exponent := point - count
  let num := m * up q * Nat.pow 10 (-exponent).toNat
  let den := down q * Nat.pow 10 exponent.toNat
  let low := num / den
  let lower : Decimal := ⟨low, exponent⟩
  let upper : Decimal := ⟨low + 1, exponent⟩
  match readsBack m q lower, readsBack m q upper with
  | true, false => some lower
  | false, true => some upper
  | false, false => none
  | true, true =>
      match compare (2 * num) ((2 * low + 1) * den) with
      | .lt => some lower
      | .gt => some upper
      | .eq => some (if low % 2 = 0 then lower else upper)

def exactDecimal (m : Nat) (q : Int) : Decimal :=
  ⟨m * up q * Nat.pow 5 (-q).toNat, min q 0⟩

def dropZeros : Nat → Decimal → Decimal
  | 0, d => d
  | fuel + 1, d =>
      if d.digits % 10 = 0 ∧ d.digits ≠ 0 then dropZeros fuel ⟨d.digits / 10, d.exponent + 1⟩ else d

/-- The shortest decimal that reads back to the positive value `m * 2 ^ q`. -/
def shortest (m : Nat) (q : Int) : Decimal :=
  let point := pointPosition m q
  let found := (List.range 17).findSome? fun n => onGrid? m q point (n + 1)
  dropZeros 17 (found.getD (exactDecimal m q))

end TreeScript.Numeral
