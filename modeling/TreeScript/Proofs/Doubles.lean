import Mathlib
import TreeScript.Number

/-!
# Integers among the doubles

Up to `2 ^ 53` every integer is a double. Above, only the multiples of some power of two are, until
there are none from `2 ^ 1024` on. The double nearest to an integer is therefore another integer in
general, and the bits of a double are computed from it without another rounding.
-/

namespace TreeScript.Numeral

/-! ### Rounding a fraction -/

/-- A fraction is rounded to the integer below or above, whichever is nearer, and to the even one of
them if both are equally near. -/
theorem roundQuotient_cases (num den : Nat) :
    (2 * (num % den) ≤ den ∧ roundQuotient num den = num / den ∧
        (2 * (num % den) = den → num / den % 2 = 0)) ∨
      (den ≤ 2 * (num % den) ∧ roundQuotient num den = num / den + 1 ∧
        (2 * (num % den) = den → (num / den + 1) % 2 = 0)) := by
  unfold roundQuotient
  split
  next less =>
    rw [Nat.compare_eq_lt] at less
    exact .inl ⟨less.le, rfl, by omega⟩
  next greater =>
    rw [Nat.compare_eq_gt] at greater
    exact .inr ⟨greater.le, rfl, by omega⟩
  next equal =>
    rw [Nat.compare_eq_eq] at equal
    by_cases even : num / den % 2 = 0
    · exact .inl ⟨equal.le, by simp [even], fun _ => even⟩
    · exact .inr ⟨equal.ge, by simp [even], fun _ => by omega⟩

theorem le_roundQuotient (num den : Nat) : num / den ≤ roundQuotient num den := by
  rcases roundQuotient_cases num den with ⟨_, rounded, _⟩ | ⟨_, rounded, _⟩ <;> omega

theorem roundQuotient_le (num den : Nat) : roundQuotient num den ≤ num / den + 1 := by
  rcases roundQuotient_cases num den with ⟨_, rounded, _⟩ | ⟨_, rounded, _⟩ <;> omega

theorem roundQuotient_one (num : Nat) : roundQuotient num 1 = num := by
  simpa using roundQuotient_mul num 1 Nat.one_pos

/-- A common factor of numerator and denominator makes no difference. -/
theorem roundQuotient_mul_left {factor : Nat} (positive : 0 < factor) (num den : Nat) :
    roundQuotient (factor * num) (factor * den) = roundQuotient num den := by
  have scaled : compare (2 * (factor * (num % den))) (factor * den) =
      compare (2 * (num % den)) den := by
    rw [Nat.mul_left_comm]
    rcases order : compare (2 * (num % den)) den with _ | _ | _
    · rw [Nat.compare_eq_lt] at order ⊢
      exact Nat.mul_lt_mul_of_pos_left order positive
    · rw [Nat.compare_eq_eq] at order ⊢
      rw [order]
    · rw [Nat.compare_eq_gt] at order ⊢
      exact Nat.mul_lt_mul_of_pos_left order positive
  simp only [roundQuotient, Nat.mul_div_mul_left num den positive, Nat.mul_mod_mul_left, scaled]

/-- A fraction is rounded by at most one half, and by one half only to an even number. -/
theorem roundQuotient_bounds {den : Nat} (positive : 0 < den) (num : Nat) :
    2 * num ≤ 2 * (roundQuotient num den * den) + den ∧
      2 * (roundQuotient num den * den) ≤ 2 * num + den ∧
      (2 * num = 2 * (roundQuotient num den * den) + den → roundQuotient num den % 2 = 0) := by
  have divided := Nat.div_add_mod' num den
  have less := Nat.mod_lt num positive
  rcases roundQuotient_cases num den with ⟨low, rounded, even⟩ | ⟨high, rounded, even⟩
  · rw [rounded]
    exact ⟨by omega, by omega, fun half => even (by omega)⟩
  · rw [rounded, Nat.succ_mul (num / den)]
    exact ⟨by omega, by omega, by omega⟩

/-- No multiple of the denominator is nearer to the numerator. -/
theorem roundQuotient_nearest {den : Nat} (positive : 0 < den) (num multiple : Nat) :
    ((roundQuotient num den * den : Nat) - num : Int).natAbs ≤
      ((multiple * den : Nat) - num : Int).natAbs := by
  obtain ⟨above, below, -⟩ := roundQuotient_bounds positive num
  rcases Nat.lt_trichotomy multiple (roundQuotient num den) with less | rfl | greater
  · have step := Nat.mul_le_mul_right den (Nat.succ_le_of_lt less)
    rw [Nat.succ_mul] at step
    omega
  · exact Nat.le_refl _
  · have step := Nat.mul_le_mul_right den (Nat.succ_le_of_lt greater)
    rw [Nat.succ_mul] at step
    omega

/-! ### Integers that are doubles -/

/-- An integer that is the value of a double. -/
def IsDouble (i : Int) : Prop := ∃ m e : Nat, m < 2 ^ 53 ∧ e ≤ 971 ∧ i.natAbs = m * 2 ^ e

/-- The exponent of the doubles around a number, where these are integers. -/
def spacing (n : Nat) : Nat := n.log2 - 52

/-- The double nearest to a number, if it is not too large for one. -/
def rounded (n : Nat) : Nat := roundQuotient n (2 ^ spacing n) * 2 ^ spacing n

variable {n : Nat}

theorem lt_two_pow_spacing (n : Nat) : n < 2 ^ 53 * 2 ^ spacing n := by
  rw [← Nat.pow_add]
  exact Nat.lt_log2_self.trans_le (Nat.pow_le_pow_right Nat.two_pos (by unfold spacing; omega))

theorem two_pow_spacing_le (large : 52 ≤ n.log2) : 2 ^ 52 * 2 ^ spacing n ≤ n := by
  have nonzero : n ≠ 0 := by
    rintro rfl
    simp at large
  have whole : 52 + spacing n = n.log2 := by unfold spacing; omega
  rw [← Nat.pow_add, whole]
  exact Nat.log2_self_le nonzero

theorem roundQuotient_spacing_le (n : Nat) : roundQuotient n (2 ^ spacing n) ≤ 2 ^ 53 :=
  (roundQuotient_le _ _).trans
    (Nat.succ_le_of_lt (Nat.div_lt_of_lt_mul (Nat.mul_comm .. ▸ lt_two_pow_spacing n)))

theorem le_roundQuotient_spacing (large : 52 ≤ n.log2) :
    2 ^ 52 ≤ roundQuotient n (2 ^ spacing n) :=
  ((Nat.le_div_iff_mul_le (Nat.two_pow_pos _)).mpr (two_pow_spacing_le large)).trans
    (le_roundQuotient _ _)

/-- Small numbers are doubles. -/
theorem rounded_of_log2_le (small : n.log2 ≤ 52) : rounded n = n := by
  have none : spacing n = 0 := Nat.sub_eq_zero_of_le small
  rw [rounded, none, Nat.pow_zero, roundQuotient_one, Nat.mul_one]

/-- No other double is nearer. -/
theorem rounded_nearest {m : Nat} (short : m < 2 ^ 53) (n e : Nat) :
    ((rounded n : Int) - n).natAbs ≤ ((m * 2 ^ e : Nat) - n : Int).natAbs := by
  rcases Nat.lt_or_ge e (spacing n) with below | above
  · -- Doubles with a smaller exponent lie below those with the exponent of `n`.
    have large : 52 ≤ n.log2 := by unfold spacing at below; omega
    have nearest := roundQuotient_nearest (Nat.two_pow_pos (spacing n)) n (2 ^ 52)
    have least := two_pow_spacing_le large
    have less : m * 2 ^ e ≤ 2 ^ 52 * 2 ^ spacing n :=
      calc m * 2 ^ e ≤ 2 ^ 53 * 2 ^ e := Nat.mul_le_mul_right _ short.le
        _ = 2 ^ 52 * 2 ^ (e + 1) := by ring
        _ ≤ 2 ^ 52 * 2 ^ spacing n :=
          Nat.mul_le_mul_left _ (Nat.pow_le_pow_right Nat.two_pos below)
    unfold rounded
    omega
  · have multiple : m * 2 ^ e = m * 2 ^ (e - spacing n) * 2 ^ spacing n := by
      rw [Nat.mul_assoc, ← Nat.pow_add, Nat.sub_add_cancel above]
    rw [multiple]
    exact roundQuotient_nearest (Nat.two_pow_pos (spacing n)) n _

/-! ### The bits of a rounded integer -/

theorem binaryExponent_mul {den : Nat} (positive : 0 < n) (positive' : 0 < den) :
    binaryExponent (n * den) den = n.log2 := by
  have low := Nat.log2_self_le positive.ne'
  have high := @Nat.lt_log2_self n
  have low' := Nat.log2_self_le positive'.ne'
  have high' := @Nat.lt_log2_self den
  have product : n.log2 + den.log2 ≤ (n * den).log2 := by
    rw [Nat.le_log2 (Nat.mul_pos positive positive').ne', Nat.pow_add]
    exact Nat.mul_le_mul low low'
  have product' : (n * den).log2 < n.log2 + den.log2 + 2 := by
    rw [Nat.log2_lt (Nat.mul_pos positive positive').ne']
    calc n * den < 2 ^ (n.log2 + 1) * 2 ^ (den.log2 + 1) := Nat.mul_lt_mul'' high high'
      _ = 2 ^ (n.log2 + den.log2 + 2) := by rw [← Nat.pow_add]; congr 1; omega
  unfold binaryExponent
  rcases (by omega : (n * den).log2 = n.log2 + den.log2 ∨
    (n * den).log2 = n.log2 + den.log2 + 1) with equal | more
  · have guess : ((n * den).log2 : Int) - den.log2 = n.log2 := by omega
    rw [guess]
    have fits : ¬ n * den * down n.log2 < den * up n.log2 := by
      simp only [down, up, Nat.pow_eq, Int.toNat_natCast, Int.toNat_neg_natCast, Nat.pow_zero,
        Nat.mul_one, Nat.mul_comm n den, not_lt]
      exact Nat.mul_le_mul_left den low
    simp only [fits, if_false]
  · have guess : ((n * den).log2 : Int) - den.log2 = (n.log2 + 1 : Nat) := by omega
    rw [guess]
    have less : n * den * down (n.log2 + 1 : Nat) < den * up (n.log2 + 1 : Nat) := by
      simp only [down, up, Nat.pow_eq, Int.toNat_natCast, Int.toNat_neg_natCast, Nat.pow_zero,
        Nat.mul_one, Nat.mul_comm n den]
      exact Nat.mul_lt_mul_of_pos_left high positive'
    simp only [less, if_true]
    omega

/-- A fraction that is an integer is rounded as the integer is. -/
theorem nearestBits?_mul {den : Nat} (positive : 0 < n) (positive' : 0 < den) :
    nearestBits? (n * den) den =
      let q : Int := n.log2 - 52
      let bits := (q + 1074).toNat * 2 ^ 52 + roundQuotient (n * down q) (up q)
      if bits < 2047 * 2 ^ 52 then some bits else none := by
  have nonzero : n * den ≠ 0 := (Nat.mul_pos positive positive').ne'
  have exponent : max ((n.log2 : Int) - 52) (-1074) = n.log2 - 52 := by omega
  have factor (q : Int) : n * den * down q = den * (n * down q) := by
    rw [Nat.mul_comm n den, Nat.mul_assoc]
  simp only [nearestBits?, nonzero, if_false, binaryExponent_mul positive positive', exponent,
    factor, roundQuotient_mul_left positive', Nat.pow_eq]

/-- A positive integer is rounded to a mantissa with its first bit set and an exponent, from which
the bits of the double are made. -/
structure Mantissa (n k m : Nat) : Prop where
  least : 2 ^ 52 ≤ m
  most : m < 2 ^ 53
  value : m * up (k - 1074) = rounded n * down (k - 1074)
  bits : ∀ den, 0 < den →
    nearestBits? (n * den) den = if k ≤ 2045 then some (k * 2 ^ 52 + m) else none

theorem bits_lt_iff {k m : Nat} (least : 2 ^ 52 ≤ m) (most : m < 2 ^ 53) :
    k * 2 ^ 52 + m < 2047 * 2 ^ 52 ↔ k ≤ 2045 := by
  omega

theorem up_down_natCast (k : Nat) : up k = 2 ^ k ∧ down k = 1 := by simp [up, down]

theorem up_down_neg_natCast (k : Nat) : up (-k) = 1 ∧ down (-k) = 2 ^ k := by simp [up, down]

/-- A small integer is shifted until its first bit is set. -/
theorem mantissa_of_small (positive : 0 < n) (small : n.log2 ≤ 52) :
    Mantissa n (1022 + n.log2) (n * 2 ^ (52 - n.log2)) := by
  have q : (n.log2 : Int) - 52 = -(52 - n.log2 : Nat) := by omega
  have biased : (-(52 - n.log2 : Nat) + 1074 : Int).toNat = 1022 + n.log2 := by omega
  have exponent : ((1022 + n.log2 : Nat) : Int) - 1074 = -(52 - n.log2 : Nat) := by omega
  have least : 2 ^ 52 ≤ n * 2 ^ (52 - n.log2) :=
    calc 2 ^ 52 = 2 ^ n.log2 * 2 ^ (52 - n.log2) := by rw [← Nat.pow_add]; congr 1; omega
      _ ≤ n * 2 ^ (52 - n.log2) := Nat.mul_le_mul_right _ (Nat.log2_self_le positive.ne')
  have most : n * 2 ^ (52 - n.log2) < 2 ^ 53 :=
    calc n * 2 ^ (52 - n.log2) < 2 ^ (n.log2 + 1) * 2 ^ (52 - n.log2) :=
          Nat.mul_lt_mul_of_pos_right Nat.lt_log2_self (Nat.two_pow_pos _)
      _ = 2 ^ 53 := by rw [← Nat.pow_add]; congr 1; omega
  refine ⟨least, most, ?_, fun den positive' => ?_⟩
  · rw [exponent, (up_down_neg_natCast _).1, (up_down_neg_natCast _).2, rounded_of_log2_le small,
      Nat.mul_one]
  · simp only [nearestBits?_mul positive positive', q, biased, up_down_neg_natCast,
      roundQuotient_one, bits_lt_iff least most]

/-- A large integer is divided by the spacing of the doubles around it. If the mantissa becomes a
power of two when it is rounded, its last bit goes to the exponent. -/
theorem exists_mantissa_of_large (large : 52 < n.log2) : ∃ k m, Mantissa n k m := by
  have positive : 0 < n := Nat.pos_of_ne_zero (by rintro rfl; simp at large)
  have q : (n.log2 : Int) - 52 = spacing n := by unfold spacing; omega
  have biased : ((spacing n : Int) + 1074).toNat = spacing n + 1074 := by omega
  have least := le_roundQuotient_spacing large.le
  rcases (roundQuotient_spacing_le n).lt_or_eq with most | carry
  · have exponent : ((spacing n + 1074 : Nat) : Int) - 1074 = spacing n := by omega
    refine ⟨spacing n + 1074, _, least, most, ?_, fun den positive' => ?_⟩
    · rw [exponent, (up_down_natCast _).1, (up_down_natCast _).2, Nat.mul_one, rounded]
    · simp only [nearestBits?_mul positive positive', q, biased, up_down_natCast, Nat.mul_one,
        bits_lt_iff least most]
  · have exponent : ((spacing n + 1075 : Nat) : Int) - 1074 = (spacing n + 1 : Nat) := by omega
    have moved :
        (spacing n + 1074) * 2 ^ 52 + 2 ^ 53 = (spacing n + 1075) * 2 ^ 52 + 2 ^ 52 := by ring
    refine ⟨spacing n + 1075, 2 ^ 52, Nat.le_refl _, by decide, ?_, fun den positive' => ?_⟩
    · rw [exponent, (up_down_natCast _).1, (up_down_natCast _).2, Nat.mul_one, rounded, carry]
      ring
    · simp only [nearestBits?_mul positive positive', q, biased, up_down_natCast, Nat.mul_one,
        carry, moved, bits_lt_iff (Nat.le_refl _) (by decide : 2 ^ 52 < 2 ^ 53)]

theorem exists_mantissa (positive : 0 < n) : ∃ k m, Mantissa n k m := by
  rcases Nat.lt_or_ge 52 n.log2 with large | small
  · exact exists_mantissa_of_large large
  · exact ⟨_, _, mantissa_of_small positive small⟩

/-! ### The double with some bits -/

open Float.Model in
theorem toBits_ofBits {bits : Nat} (fits : bits < 2 ^ 64) (finite : bits / 2 ^ 52 % 2 ^ 11 ≠ 2047) :
    (Float.ofBits (UInt64.ofNat bits)).toBits.toNat = bits := by
  have exponent : @UnpackedFloat.unpackExponent .binary64 (UInt64.ofNat bits).toBitVec ≠ -1#_ := by
    rw [UnpackedFloat.unpackExponent_def]
    intro full
    have value := congrArg BitVec.toNat full
    simp [BitVec.extractLsb'_toNat, Nat.shiftRight_eq_div_pow] at value
    omega
  have packed := @UnpackedFloat.pack_unpack .binary64 (UInt64.ofNat bits).toBitVec (by decide)
  simp only [UnpackedFloat.isNaNBits, exponent, false_and, decide_false, Bool.false_eq_true,
    if_false] at packed
  simp only [Float.ofBits, Float.toBits, Float.Model.ofBits, Float.Model.pack, packed]
  exact UInt64.toNat_ofNat_of_lt fits

theorem view_ofMagnitude (negative : Bool) {bits : Nat} (finite : bits < 2047 * 2 ^ 52) :
    view (ofMagnitude negative bits) =
      if bits < 2 ^ 52 then .finite negative bits (-1074)
      else .finite negative (2 ^ 52 + bits % 2 ^ 52) ((bits / 2 ^ 52 : Nat) - 1075) := by
  have sign : (bits + if negative then 2 ^ 63 else 0) / 2 ^ 63 % 2 = if negative then 1 else 0 := by
    cases negative <;> simp <;> omega
  have exponent : (bits + if negative then 2 ^ 63 else 0) / 2 ^ 52 % 2 ^ 11 = bits / 2 ^ 52 := by
    cases negative <;> simp <;> omega
  have fraction : (bits + if negative then 2 ^ 63 else 0) % 2 ^ 52 = bits % 2 ^ 52 := by
    cases negative <;> simp
    omega
  have fits : (bits + if negative then 2 ^ 63 else 0) < 2 ^ 64 := by
    cases negative <;> simp <;> omega
  have below : bits / 2 ^ 52 ≠ 2047 := by omega
  have isNegative : ((if negative then 1 else 0) == 1) = negative := by cases negative <;> rfl
  simp only [view, ofMagnitude, Nat.pow_eq, toBits_ofBits fits (exponent ▸ below), View.ofBits,
    sign, exponent, fraction, below, if_false, isNegative]
  by_cases small : bits < 2 ^ 52
  · rw [if_pos (Nat.div_eq_of_lt small), if_pos small, Nat.mod_eq_of_lt small]
  · rw [if_neg (by omega), if_neg small]

theorem view_ofMagnitude_zero (negative : Bool) :
    view (ofMagnitude negative 0) = .finite negative 0 (-1074) :=
  view_ofMagnitude negative (by decide)

theorem view_ofMagnitude_mantissa (negative : Bool) {k m : Nat} (least : 2 ^ 52 ≤ m)
    (most : m < 2 ^ 53) (inside : k ≤ 2045) :
    view (ofMagnitude negative (k * 2 ^ 52 + m)) = .finite negative m (k - 1074) := by
  have fraction : 2 ^ 52 + (k * 2 ^ 52 + m) % 2 ^ 52 = m := by omega
  have exponent : (((k * 2 ^ 52 + m) / 2 ^ 52 : Nat) : Int) - 1075 = k - 1074 := by omega
  rw [view_ofMagnitude negative (by omega), if_neg (by omega), fraction, exponent]

theorem up_eq_one_or_down_eq_one (q : Int) : up q = 1 ∨ down q = 1 := by
  unfold up down
  rcases Int.le_total q 0 with le | ge
  · exact .inl (by simp [Int.toNat_of_nonpos le])
  · exact .inr (by simp [Int.toNat_of_nonpos (Int.neg_nonpos_of_nonneg ge)])

theorem down_pos (q : Int) : 0 < down q := Nat.two_pow_pos _

theorem integer?_of_view {x : Float} {negative : Bool} {m n : Nat} {q : Int}
    (viewed : view x = .finite negative m q) (value : m * up q = n * down q) :
    (Number.real x).integer? = some (signed negative n) := by
  have integral : m % down q = 0 := by
    rcases up_eq_one_or_down_eq_one q with one | one
    · rw [one, Nat.mul_one] at value
      rw [value, Nat.mul_mod_left]
    · rw [one, Nat.mod_one]
  have cut : m * up q / down q = n := by rw [value, Nat.mul_div_cancel n (down_pos q)]
  simp only [Number.integer?, viewed, View.isIntegral, View.truncate?, integral, cut, signed,
    beq_self_eq_true, if_true]

/-! ### The largest doubles -/

theorem mul_two_pow_lt {m : Nat} (most : m < 2 ^ 53) {k top : Nat} (inside : k ≤ top) :
    m * 2 ^ k < 2 ^ 53 * 2 ^ top :=
  Nat.mul_lt_mul_of_lt_of_le most (Nat.pow_le_pow_right Nat.two_pos inside) (Nat.two_pow_pos _)

/-- A number with a mantissa of 53 bits is below a power of two if its exponent is. -/
theorem mantissa_lt_iff {m : Nat} (least : 2 ^ 52 ≤ m) (most : m < 2 ^ 53) (k top : Nat) :
    m * 2 ^ k < 2 ^ 53 * 2 ^ top ↔ k ≤ top := by
  constructor
  · intro below
    by_contra above
    have large : 2 ^ 53 * 2 ^ top ≤ m * 2 ^ k :=
      calc 2 ^ 53 * 2 ^ top = 2 ^ 52 * 2 ^ (top + 1) := by ring
        _ ≤ m * 2 ^ k := Nat.mul_le_mul least (Nat.pow_le_pow_right Nat.two_pos (by omega))
    omega
  · exact mul_two_pow_lt most

theorem Mantissa.rounded_lt_iff {k m : Nat} (mantissa : Mantissa n k m) (top : Nat) :
    rounded n < 2 ^ 53 * 2 ^ top ↔ k ≤ top + 1074 := by
  obtain ⟨least, most, value, -⟩ := mantissa
  rcases Nat.lt_or_ge k 1074 with below | above
  · have exponent : (k : Int) - 1074 = -(1074 - k : Nat) := by omega
    have small : rounded n ≤ m := by
      simp only [exponent, up, Int.toNat_neg_natCast, Nat.pow_eq, Nat.pow_zero,
        Nat.mul_one] at value
      exact value ▸ Nat.le_mul_of_pos_right _ (down_pos _)
    have scaled : 2 ^ 53 ≤ 2 ^ 53 * 2 ^ top := Nat.le_mul_of_pos_right _ (Nat.two_pow_pos top)
    exact iff_of_true (small.trans_lt (most.trans_le scaled)) (by omega)
  · have exponent : (k : Int) - 1074 = (k - 1074 : Nat) := by omega
    simp only [exponent, up, down, Int.toNat_neg_natCast, Int.toNat_natCast, Nat.pow_eq,
      Nat.pow_zero, Nat.mul_one] at value
    rw [← value, mantissa_lt_iff least most]
    omega

/-- A number is rounded up to a power of two from half the spacing below that on. -/
theorem rounded_lt_iff (n top : Nat) :
    rounded n < 2 ^ 53 * 2 ^ top ↔ 2 * n + 2 ^ top < 2 * (2 ^ 53 * 2 ^ top) := by
  rcases Nat.lt_trichotomy (spacing n) top with small | last | large
  · have less := lt_two_pow_spacing n
    have most := Nat.mul_le_mul_right (2 ^ spacing n) (roundQuotient_spacing_le n)
    have step : 2 ^ (spacing n + 1) ≤ 2 ^ top := Nat.pow_le_pow_right Nat.two_pos small
    rw [Nat.pow_succ] at step
    exact iff_of_true (by unfold rounded; omega) (by omega)
  · obtain ⟨above, below, even⟩ := roundQuotient_bounds (Nat.two_pow_pos top) n
    have positive := Nat.two_pow_pos top
    rw [rounded, last]
    constructor
    · intro inside
      have less := Nat.lt_of_mul_lt_mul_right inside
      by_cases half : 2 * n = 2 * (roundQuotient n (2 ^ top) * 2 ^ top) + 2 ^ top
      · -- The last mantissa is odd, and so nothing half a spacing above it is rounded down to it.
        have short : roundQuotient n (2 ^ top) + 2 ≤ 2 ^ 53 := by have := even half; omega
        have step := Nat.mul_le_mul_right (2 ^ top) short
        rw [Nat.add_mul] at step
        omega
      · have step := Nat.mul_le_mul_right (2 ^ top) (Nat.succ_le_of_lt less)
        rw [Nat.succ_mul] at step
        omega
    · intro inside
      omega
  · have normal : 52 ≤ n.log2 := by unfold spacing at large; omega
    have least := two_pow_spacing_le normal
    have least' := Nat.mul_le_mul_right (2 ^ spacing n) (le_roundQuotient_spacing normal)
    have step : 2 ^ (top + 1) ≤ 2 ^ spacing n := Nat.pow_le_pow_right Nat.two_pos large
    rw [Nat.pow_succ] at step
    exact iff_of_false (by unfold rounded; omega) (by omega)

/-- All finite doubles are below this. -/
def doubleLimit : Nat := 2 ^ 1024

theorem doubleLimit_eq {a b : Nat} (sum : a + b = 1024) : doubleLimit = 2 ^ a * 2 ^ b := by
  rw [← Nat.pow_add, sum, doubleLimit]

/-- An integer is divided without a remainder: its double is found unless it is too large. -/
theorem nearest?_mul (negative : Bool) (n : Nat) {den : Nat} (positive : 0 < den) :
    (rounded n < doubleLimit → ∃ x, nearest? negative (n * den) den = some x ∧
        (Number.real x).integer? = some (signed negative (rounded n))) ∧
      (doubleLimit ≤ rounded n → nearest? negative (n * den) den = none) := by
  rw [doubleLimit_eq (rfl : 53 + 971 = 1024)]
  rcases Nat.eq_zero_or_pos n with rfl | positive'
  · have zero : rounded 0 = 0 := rounded_of_log2_le (by simp)
    have inside (top : Nat) : rounded 0 < 2 ^ 53 * 2 ^ top := by rw [zero]; positivity
    refine ⟨fun _ => ⟨ofMagnitude negative 0, by simp [nearest?, nearestBits?], ?_⟩,
      fun outside => absurd (inside 971) outside.not_gt⟩
    exact integer?_of_view (view_ofMagnitude_zero negative)
      (by rw [zero, Nat.zero_mul, Nat.zero_mul])
  · obtain ⟨k, m, mantissa⟩ := exists_mantissa positive'
    have limit := mantissa.rounded_lt_iff 971
    rw [nearest?, mantissa.bits den positive]
    constructor
    · intro inside
      rw [if_pos (limit.mp inside)]
      exact ⟨_, rfl, integer?_of_view (view_ofMagnitude_mantissa negative mantissa.least
        mantissa.most (limit.mp inside)) mantissa.value⟩
    · intro outside
      rw [if_neg (limit.not.mp outside.not_gt)]
      rfl

theorem rounded_lt_doubleLimit_iff (n : Nat) :
    rounded n < doubleLimit ↔ n + 2 ^ 970 < doubleLimit := by
  have shifted (top : Nat) :
      rounded n < 2 ^ 53 * 2 ^ (top + 1) ↔ n + 2 ^ top < 2 ^ 53 * 2 ^ (top + 1) := by
    rw [rounded_lt_iff, Nat.pow_succ]
    omega
  rw [doubleLimit_eq (rfl : 53 + (970 + 1) = 1024)]
  exact shifted 970

theorem natAbs_signed (negative : Bool) (n : Nat) : (signed negative n).natAbs = n := by
  cases negative <;> simp [signed]

/-- An integer that is a double is rounded to itself. -/
theorem rounded_of_isDouble {i : Int} (double : IsDouble i) : rounded i.natAbs = i.natAbs := by
  obtain ⟨m, e, short, -, value⟩ := double
  have nearest := rounded_nearest short i.natAbs e
  rw [← value] at nearest
  omega

theorem natAbs_lt_of_isDouble {i : Int} (double : IsDouble i) : i.natAbs < doubleLimit := by
  obtain ⟨m, e, short, small, value⟩ := double
  rw [value, doubleLimit_eq (rfl : 53 + 971 = 1024)]
  exact mul_two_pow_lt short small

theorem view_bounds {x : Float} {negative : Bool} {m : Nat} {q : Int}
    (viewed : view x = .finite negative m q) : m < 2 ^ 53 ∧ q ≤ 971 := by
  simp only [view, View.ofBits, Nat.pow_eq] at viewed
  split at viewed
  · split at viewed <;> cases viewed
  · split at viewed
    · cases viewed
      exact ⟨by omega, by omega⟩
    · cases viewed
      exact ⟨by omega, by omega⟩

theorem inside_of_isDouble {i : Int} (double : IsDouble i) :
    i.natAbs + 2 ^ 970 < doubleLimit := by
  rw [← rounded_lt_doubleLimit_iff, rounded_of_isDouble double]
  exact natAbs_lt_of_isDouble double

/-- The value of a double that is an integer. -/
theorem isDouble_of_integer? {x : Float} {i : Int} (value : (Number.real x).integer? = some i) :
    IsDouble i := by
  cases viewed : view x with
  | nan => simp [Number.integer?, viewed, View.isIntegral] at value
  | infinite negative => simp [Number.integer?, viewed, View.isIntegral] at value
  | finite negative m q =>
      obtain ⟨short, small⟩ := view_bounds viewed
      simp only [Number.integer?, viewed, View.isIntegral, View.truncate?] at value
      split at value
      · cases value
        have magnitude := natAbs_signed negative (m * up q / down q)
        rcases up_eq_one_or_down_eq_one q with one | one
        · refine ⟨m / down q, 0, (Nat.div_le_self _ _).trans_lt short, Nat.zero_le _, ?_⟩
          exact magnitude.trans (by rw [one, Nat.mul_one, Nat.pow_zero, Nat.mul_one])
        · refine ⟨m, q.toNat, short, by omega, ?_⟩
          exact magnitude.trans (by rw [one, Nat.div_one, up, Nat.pow_eq])
      · cases value

/-! ### The double nearest to an integer -/

/-- The double nearest to an integer, if the integer is not too large for one. -/
def nearestDouble (i : Int) : Int := signed (i < 0) (rounded i.natAbs)

theorem signed_natAbs (i : Int) : signed (i < 0) i.natAbs = i := by
  by_cases negative : i < 0
  · simp only [signed, negative, decide_true, if_true]
    omega
  · simp only [signed, negative, decide_false, Bool.false_eq_true, if_false]
    omega

theorem nearestDouble_of_isDouble {i : Int} (double : IsDouble i) : nearestDouble i = i := by
  rw [nearestDouble, rounded_of_isDouble double, signed_natAbs]

/-- No other double is nearer. -/
theorem nearestDouble_nearest (i : Int) {other : Int} (double : IsDouble other) :
    (nearestDouble i - i).natAbs ≤ (other - i).natAbs := by
  obtain ⟨m, e, short, -, value⟩ := double
  have nearest := rounded_nearest short i.natAbs e
  rw [← value] at nearest
  by_cases negative : i < 0
  · simp only [nearestDouble, signed, negative, decide_true, if_true]
    omega
  · simp only [nearestDouble, signed, negative, decide_false, Bool.false_eq_true, if_false]
    omega

/-- The sign of a quotient is that of both operands together. -/
theorem sign_of_ne_zero {a b : Int} (nonzero : a ≠ 0) (nonzero' : b ≠ 0) :
    (decide (a * b < 0) != decide (b < 0)) = decide (a < 0) := by
  rcases nonzero.lt_or_gt with negative | positive <;>
    rcases nonzero'.lt_or_gt with negative' | positive'
  · simp [negative, negative', (Int.mul_pos_of_neg_of_neg negative negative').not_gt]
  · simp [negative, positive'.not_gt, Int.mul_neg_of_neg_of_pos negative positive']
  · simp [positive.not_gt, negative', Int.mul_neg_of_pos_of_neg positive negative']
  · simp [positive.not_gt, positive'.not_gt, (Int.mul_pos positive positive').not_gt]

/-- A quotient of integers that is one itself, as a double. -/
theorem ofQuotient?_mul (quotient : Int) {b : Int} (nonzero : b ≠ 0) :
    (quotient.natAbs + 2 ^ 970 < doubleLimit → ∃ x, ofQuotient? (quotient * b) b = some x ∧
        (Number.real x).integer? = some (nearestDouble quotient)) ∧
      (doubleLimit ≤ quotient.natAbs + 2 ^ 970 → ofQuotient? (quotient * b) b = none) := by
  have positive : 0 < b.natAbs := Int.natAbs_pos.mpr nonzero
  rw [← rounded_lt_doubleLimit_iff, ← not_lt, ← rounded_lt_doubleLimit_iff, not_lt, ofQuotient?,
    Int.natAbs_mul]
  obtain ⟨found, missing⟩ := nearest?_mul ((quotient * b < 0) != (b < 0)) quotient.natAbs positive
  refine ⟨fun inside => ?_, missing⟩
  obtain ⟨x, nearest, value⟩ := found inside
  refine ⟨x, nearest, value.trans (congrArg some ?_)⟩
  rcases Int.lt_trichotomy quotient 0 with negative | rfl | positive'
  · rw [nearestDouble, sign_of_ne_zero negative.ne nonzero]
  · have zero : rounded 0 = 0 := rounded_of_log2_le (by simp)
    simp [nearestDouble, zero, signed]
  · rw [nearestDouble, sign_of_ne_zero positive'.ne' nonzero]

/-- The integers that are doubles are the values of the doubles that are integers. -/
theorem isDouble_iff (i : Int) : IsDouble i ↔ ∃ x, (Number.real x).integer? = some i := by
  refine ⟨fun double => ?_, fun ⟨x, value⟩ => isDouble_of_integer? value⟩
  obtain ⟨x, -, value⟩ := (ofQuotient?_mul i Int.one_ne_zero).1 (inside_of_isDouble double)
  exact ⟨x, value.trans (congrArg some (nearestDouble_of_isDouble double))⟩

theorem isDouble_nearestDouble {i : Int} (inside : i.natAbs + 2 ^ 970 < doubleLimit) :
    IsDouble (nearestDouble i) := by
  obtain ⟨x, -, value⟩ := (ofQuotient?_mul i Int.one_ne_zero).1 inside
  exact isDouble_of_integer? value

theorem nearestDouble_eq_iff {i : Int} (inside : i.natAbs + 2 ^ 970 < doubleLimit) :
    nearestDouble i = i ↔ IsDouble i :=
  ⟨fun same => same ▸ isDouble_nearestDouble inside, nearestDouble_of_isDouble⟩

end TreeScript.Numeral
