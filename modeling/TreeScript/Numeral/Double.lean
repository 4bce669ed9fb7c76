/-!
# Doubles, exactly

A finite double is a natural number times a power of two, with a sign. Everything that has to be
exact about doubles is computed on that form with natural numbers: the nearest double to a fraction,
truncation, and comparison with an integer. Rounding is to nearest with ties to even.
-/

namespace TreeScript.Numeral

/-- What a double stands for. -/
inductive View where
  | nan
  | infinite (negative : Bool)
  /-- The value `m * 2 ^ q`, negated if `negative`. -/
  | finite (negative : Bool) (m : Nat) (q : Int)
deriving Repr, DecidableEq

def View.ofBits (bits : Nat) : View :=
  let negative := bits / Nat.pow 2 63 % 2 == 1
  let exponent : Nat := bits / Nat.pow 2 52 % Nat.pow 2 11
  let fraction : Nat := bits % Nat.pow 2 52
  if exponent = 2047 then
    if fraction = 0 then .infinite negative else .nan
  else if exponent = 0 then .finite negative fraction (-1074)
  else .finite negative (Nat.pow 2 52 + fraction) ((exponent : Int) - 1075)

def view (x : Float) : View := .ofBits x.toBits.toNat

/-- The factor `2 ^ q` for `q ≥ 0`, and one for the others. -/
def up (q : Int) : Nat := Nat.pow 2 q.toNat

/-- The factor `2 ^ -q` for `q ≤ 0`, and one for the others. -/
def down (q : Int) : Nat := Nat.pow 2 (-q).toNat

def roundQuotient (num den : Nat) : Nat :=
  let quotient := num / den
  match compare (2 * (num % den)) den with
  | .lt => quotient
  | .gt => quotient + 1
  | .eq => if quotient % 2 = 0 then quotient else quotient + 1

/-- The binary exponent of a positive fraction: `2 ^ e ≤ num / den < 2 ^ (e + 1)`. -/
def binaryExponent (num den : Nat) : Int :=
  let guess : Int := (num.log2 : Int) - den.log2
  if num * down guess < den * up guess then guess - 1 else guess

/-- The bits of the double nearest to a fraction, unless it is too large for one. A mantissa that
rounds up to the next power of two carries into the exponent, as it should. -/
def nearestBits? (num den : Nat) : Option Nat :=
  if num = 0 then some 0
  else
    let q := max (binaryExponent num den - 52) (-1074)
    let m := roundQuotient (num * down q) (den * up q)
    let bits := (q + 1074).toNat * Nat.pow 2 52 + m
    if bits < 2047 * Nat.pow 2 52 then some bits else none

def ofMagnitude (negative : Bool) (bits : Nat) : Float :=
  Float.ofBits (UInt64.ofNat (bits + if negative then Nat.pow 2 63 else 0))

def infinity (negative : Bool) : Float := ofMagnitude negative (2047 * Nat.pow 2 52)

def notANumber : Float := ofMagnitude false (4095 * Nat.pow 2 51)

/-- The double nearest to a fraction, unless it is too large for one. -/
def nearest? (negative : Bool) (num den : Nat) : Option Float :=
  (nearestBits? num den).map (ofMagnitude negative)

def ofInteger? (i : Int) : Option Float := nearest? (i < 0) i.natAbs 1

def ofQuotient? (a b : Int) : Option Float :=
  nearest? ((a < 0) != (b < 0)) a.natAbs b.natAbs

/-- The double nearest to `digits * 10 ^ exponent`, where `digits` has `count` decimal digits. A
value above the largest double becomes infinite, one below the least positive double zero. -/
def ofDecimal (negative : Bool) (digits count : Nat) (exponent : Int) : Float :=
  if digits = 0 then ofMagnitude negative 0
  else if exponent + count > 310 then infinity negative
  else if exponent + count < -330 then ofMagnitude negative 0
  else (nearest? negative (digits * Nat.pow 10 exponent.toNat) (Nat.pow 10 (-exponent).toNat)).getD
    (infinity negative)

def View.isIntegral : View → Bool
  | .finite _ m q => m % down q == 0
  | _ => false

/-- The integer next to a finite value toward zero. -/
def View.truncate? : View → Option Int
  | .finite negative m q =>
      let n := m * up q / down q
      some (if negative then -(n : Int) else n)
  | _ => none

/-- An integer compared with a double; nothing compares with what is no number. -/
def View.compareInteger? (i : Int) : View → Option Ordering
  | .nan => none
  | .infinite negative => some (if negative then .gt else .lt)
  | .finite negative m q =>
      let n : Int := m * up q
      some (compare (i * down q) (if negative then -n else n))

theorem roundQuotient_mul (n den : Nat) (h : 0 < den) : roundQuotient (n * den) den = n := by
  unfold roundQuotient
  have hq : n * den / den = n := Nat.mul_div_cancel n h
  have hr : n * den % den = 0 := Nat.mul_mod_left n den
  have hc : compare (2 * (n * den % den)) den = .lt := by
    rw [hr, Nat.compare_eq_lt]
    omega
  simp only [hc, hq]

end TreeScript.Numeral
