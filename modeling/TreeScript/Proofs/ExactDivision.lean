import TreeScript.Proofs.Doubles
import TreeScript.Proofs.Session

/-!
# Exact division

The quotient of two integers is computed as a double, also if it is an integer itself. Such a
quotient is exact if it is a double. Otherwise the result is the double nearest to it, which is a
different integer, and if it is too large for a double there is no result.
-/

namespace TreeScript

open Numeral

/-- An integral double is normalized to the integer that it is. -/
theorem Number.normalize_of_integer? {x : Float} {i : Int}
    (value : (Number.real x).integer? = some i) : (Number.real x).normalize = .int i := by
  simp only [Number.integer?] at value
  split at value
  next integral => simp only [Number.normalize, integral, if_true, value, Option.elim]
  · cases value

/-- If an integer divides another one, then the quotient is rounded to a double. -/
theorem Number.div_mul (quotient : Int) {b : Int} (nonzero : b ≠ 0) :
    (Number.int (quotient * b)).div (.int b) =
      if quotient.natAbs + 2 ^ 970 < doubleLimit then .ok (.int (nearestDouble quotient))
      else .error .quotientTooLarge := by
  have isZero : (Number.int b).isZero = false := by simpa [Number.isZero] using nonzero
  obtain ⟨found, missing⟩ := ofQuotient?_mul quotient nonzero
  simp only [Number.div, isZero, Bool.false_eq_true, if_false, Number.quotient]
  split
  next inside =>
    obtain ⟨x, divided, value⟩ := found inside
    rw [divided]
    exact congrArg Except.ok (Number.normalize_of_integer? value)
  next outside =>
    rw [missing (Nat.le_of_not_lt outside)]
    rfl

namespace Builtin

variable (runtime : RuntimeId) (context : Context) (rest : List Object) (yielded : Node)
variable (evaluator : Evaluator) (settings : Settings) (state : State)

/-- What a builtin does with two integers, and maybe further arguments. -/
def onIntegers (builtin : Builtin) (a b : Int) : Except Interrupt Object × State :=
  (builtin.run runtime context
    (.value (.number (.int a)) :: .value (.number (.int b)) :: rest) yielded).run
      evaluator settings state

theorem onIntegers_div (quotient : Int) {b : Int} (nonzero : b ≠ 0) :
    onIntegers runtime context rest yielded evaluator settings state .div (quotient * b) b =
      if quotient.natAbs + 2 ^ 970 < doubleLimit then
        (.ok (.value (.number (.int (nearestDouble quotient)))), state)
      else (.error (.failure (.arithmetic .quotientTooLarge)), state) := by
  have divided := Number.div_mul quotient nonzero
  change (Rule.run evaluator (runDiv runtime (.value (.number (.int (quotient * b))))
    (.value (.number (.int b)))) settings state) = _
  simp only [runDiv, divided]
  split <;> rfl

/-- The only result that the division can have is the double nearest to the quotient. -/
theorem onIntegers_div_eq_iff (quotient result : Int) {b : Int} (nonzero : b ≠ 0) :
    onIntegers runtime context rest yielded evaluator settings state .div (quotient * b) b =
        (.ok (.value (.number (.int result))), state) ↔
      quotient.natAbs + 2 ^ 970 < doubleLimit ∧ result = nearestDouble quotient := by
  rw [onIntegers_div runtime context rest yielded evaluator settings state quotient nonzero]
  constructor
  · intro same
    split at same
    next inside =>
      cases same
      exact ⟨inside, rfl⟩
    · cases same
  · rintro ⟨inside, rfl⟩
    exact if_pos inside

theorem onIntegers_mul_eq_iff (a b product : Int) :
    onIntegers runtime context rest yielded evaluator settings state .mul a b =
        (.ok (.value (.number (.int product))), state) ↔ a * b = product := by
  have multiplied : onIntegers runtime context rest yielded evaluator settings state .mul a b =
      (.ok (.value (.number (.int (a * b)))), state) := rfl
  simp [multiplied]

/-- An integer is divided by one of its divisors. The result is the exact quotient just if this is a
double, and just then multiplying with the divisor gives the dividend back. There is a result unless
the quotient is too large to be rounded to a double, and it is the double nearest to the quotient.
The state stays the same in any case. -/
theorem div_exact_iff {a b : Int} (nonzero : b ≠ 0) (divides : b ∣ a) :
    let apply := onIntegers runtime context rest yielded evaluator settings state
    let gives (builtin : Builtin) (x y result : Int) :=
      apply builtin x y = (.ok (.value (.number (.int result))), state)
    (gives .div a b (a / b) ↔ IsDouble (a / b)) ∧
      (∀ result, gives .div a b result → (gives .mul result b a ↔ IsDouble (a / b)) ∧
        IsDouble result ∧
        ∀ other, IsDouble other → (result - a / b).natAbs ≤ (other - a / b).natAbs) ∧
      ((a / b).natAbs + 2 ^ 970 < doubleLimit → ∃ result, gives .div a b result) ∧
      (doubleLimit ≤ (a / b).natAbs + 2 ^ 970 →
        apply .div a b = (.error (.failure (.arithmetic .quotientTooLarge)), state)) := by
  obtain ⟨quotient, rfl⟩ := divides
  intro apply gives
  rw [Int.mul_comm b quotient, Int.mul_ediv_cancel quotient nonzero]
  have divides_iff (result : Int) : gives .div (quotient * b) b result ↔
      quotient.natAbs + 2 ^ 970 < doubleLimit ∧ result = nearestDouble quotient :=
    onIntegers_div_eq_iff runtime context rest yielded evaluator settings state quotient result
      nonzero
  refine ⟨?_, fun result given => ?_, fun inside => ?_, fun outside => ?_⟩
  · rw [divides_iff]
    constructor
    · rintro ⟨inside, same⟩
      exact (nearestDouble_eq_iff inside).mp same.symm
    · intro double
      exact ⟨inside_of_isDouble double, (nearestDouble_of_isDouble double).symm⟩
  · obtain ⟨inside, rfl⟩ := (divides_iff result).mp given
    have multiplies_iff : gives .mul (nearestDouble quotient) b (quotient * b) ↔
        nearestDouble quotient * b = quotient * b := onIntegers_mul_eq_iff ..
    refine ⟨?_, isDouble_nearestDouble inside, fun other => nearestDouble_nearest quotient⟩
    rw [multiplies_iff, Int.mul_eq_mul_right_iff nonzero, nearestDouble_eq_iff inside]
  · exact ⟨_, (divides_iff _).mpr ⟨inside, rfl⟩⟩
  · have divided :=
      onIntegers_div runtime context rest yielded evaluator settings state quotient nonzero
    exact divided.trans (if_neg outside.not_gt)

/-- A small quotient is exact. -/
theorem div_exact_iff_six :
    let apply := onIntegers 0 { scope := 0 } [] .absent (evaluate 0) (.quiet .empty) State.fresh
    apply .div 6 2 = (.ok (.value (.number (.int 3))), State.fresh) ∧
      apply .mul 3 2 = (.ok (.value (.number (.int 6))), State.fresh) := by
  intro apply
  have double : IsDouble (6 / 2) := ⟨3, 0, by decide, by decide, rfl⟩
  obtain ⟨exactly, result, -⟩ := div_exact_iff 0 { scope := 0 } [] .absent (evaluate 0)
    (.quiet .empty) State.fresh (by decide : (2 : Int) ≠ 0) (by decide : (2 : Int) ∣ 6)
  have divided := exactly.mpr double
  exact ⟨divided, (result _ divided).1.mpr double⟩

/-- The least positive integer that is no double, divided by one, is another integer; and the limit
of the doubles cannot be divided by one at all. -/
theorem div_one_inexact :
    let apply := onIntegers 0 { scope := 0 } [] .absent (evaluate 0) (.quiet .empty) State.fresh
    apply .div 9007199254740993 1 =
        (.ok (.value (.number (.int 9007199254740992))), State.fresh) ∧
      (9007199254740992 : Int) ≠ 9007199254740993 / 1 ∧
      apply .div doubleLimit 1 =
        (.error (.failure (.arithmetic .quotientTooLarge)), State.fresh) := by
  intro apply
  have divided (quotient : Int) := onIntegers_div 0 { scope := 0 } [] .absent (evaluate 0)
    (.quiet .empty) State.fresh quotient Int.one_ne_zero
  have inside : Int.natAbs 9007199254740993 + 2 ^ 970 < doubleLimit := by decide +kernel
  have next : nearestDouble 9007199254740993 = 9007199254740992 := by decide +kernel
  have outside : ¬ (doubleLimit : Int).natAbs + 2 ^ 970 < doubleLimit := by
    rw [Int.natAbs_natCast]
    exact (Nat.le_add_right _ _).not_gt
  refine ⟨(divided 9007199254740993).trans (by rw [if_pos inside, next]), by decide, ?_⟩
  have given := (divided doubleLimit).trans (if_neg outside)
  rwa [Int.mul_one] at given

end Builtin

end TreeScript
