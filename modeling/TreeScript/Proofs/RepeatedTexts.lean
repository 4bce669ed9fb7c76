import TreeScript.Proofs.Session

/-!
# Repeated texts

A text is repeated by building one copy more than is asked for and cutting off what is too much. So
the result is the plain repetition, as long as all the copies that are built together are no longer
than a text may be; otherwise there is no result, even if the repetition itself would be short
enough. That the memory may not hold a text of a length that is allowed plays no part here.
-/

namespace TreeScript

/-- The text as often as the count says, one copy after the other; none if the count is negative. -/
def repetition (text : String) (count : Int) : String :=
  String.join (List.replicate count.toNat text)

/-- Nothing has to be built, or what is built is no longer than a text may be: one copy more than is
asked for. -/
def Repeatable (text : String) (count : Int) : Prop :=
  text = "" ∨ count ≤ 0 ∨ text.length * (count + 1) < indexLimit

instance (text : String) (count : Int) : Decidable (Repeatable text count) :=
  inferInstanceAs (Decidable (_ ∨ _))

/-! ### Copies of a list -/

section

variable {α : Type} (xs : List α)

theorem length_copies (n : Nat) : (List.replicate n xs).flatten.length = xs.length * n := by
  rw [List.length_flatten, List.map_replicate, List.sum_replicate_nat, Nat.mul_comm]

/-- Cutting off the last copy leaves one copy less. -/
theorem take_copies (n : Nat) :
    (List.replicate (n + 1) xs).flatten.take (xs.length * n) = (List.replicate n xs).flatten := by
  rw [List.replicate_succ', List.flatten_append, List.take_left' (length_copies xs n)]

/-- Each place of the copies has what the list has at the remainder of the place by its length. -/
theorem getElem?_copies {n i : Nat} (inside : i < xs.length * n) :
    (List.replicate n xs).flatten[i]? = xs[i % xs.length]? := by
  induction n generalizing i with
  | zero => exact absurd inside (Nat.not_lt_zero i)
  | succ n ih =>
      rw [List.replicate_succ, List.flatten_cons, List.getElem?_append]
      split
      next first => rw [Nat.mod_eq_of_lt first]
      next later =>
        have reached : xs.length ≤ i := Nat.le_of_not_lt later
        rw [Nat.mul_succ] at inside
        rw [ih (by omega), Nat.mod_eq_sub_mod reached]

theorem copies_copies (m n : Nat) :
    (List.replicate n (List.replicate m xs).flatten).flatten =
      (List.replicate (m * n) xs).flatten := by
  induction n with
  | zero => rfl
  | succ n ih =>
      rw [List.replicate_succ', List.flatten_append, ih, List.flatten_singleton,
        ← List.flatten_append, List.replicate_append_replicate, Nat.mul_succ]

end

/-! ### The repetition -/

section

variable (text : String) (count : Int)

theorem toList_repetition :
    (repetition text count).toList = (List.replicate count.toNat text.toList).flatten := by
  rw [repetition, String.toList_join, List.flatMap_def, List.map_replicate]

theorem length_repetition : (repetition text count).length = text.length * count.toNat := by
  rw [← String.length_toList, toList_repetition, length_copies, String.length_toList]

theorem getElem?_repetition {i : Nat} (inside : i < text.length * count.toNat) :
    (repetition text count).toList[i]? = text.toList[i % text.length]? := by
  rw [← String.length_toList] at inside ⊢
  rw [toList_repetition, getElem?_copies text.toList inside]

/-- Repeating a repetition is repeating by the product of the counts. -/
theorem repetition_repetition {m n : Int} (m_nonneg : 0 ≤ m) (n_nonneg : 0 ≤ n) :
    repetition (repetition text m) n = repetition text (m * n) := by
  rw [← String.toList_inj, toList_repetition, toList_repetition, toList_repetition, copies_copies,
    Int.toNat_mul m_nonneg n_nonneg]

/-- Without a text or without a copy, nothing is left. -/
theorem repetition_of_trivial (trivial : text = "" ∨ count ≤ 0) : repetition text count = "" := by
  rw [← String.length_eq_zero_iff, length_repetition]
  rcases trivial with rfl | none
  · exact Nat.zero_mul _
  · rw [Int.toNat_of_nonpos none, Nat.mul_zero]

end

/-- If a text can be repeated and then repeated again, it can also be repeated at once. -/
theorem repeatable_mul {text : String} {m n : Int} (m_nonneg : 0 ≤ m) (n_nonneg : 0 ≤ n)
    (first : Repeatable text m) (second : Repeatable (repetition text m) n) :
    Repeatable text (m * n) := by
  rcases first with empty | few | room
  · exact .inl empty
  · exact .inr (.inl (Int.mul_nonpos_of_nonpos_of_nonneg few n_nonneg))
  rcases second with nothing | few | room'
  · have length := length_repetition text m
    rw [nothing, String.length_empty, eq_comm, Nat.mul_eq_zero, String.length_eq_zero_iff] at length
    rcases length with empty | none
    · exact .inl empty
    · exact .inr (.inl (Int.mul_nonpos_of_nonpos_of_nonneg (Int.toNat_eq_zero.mp none) n_nonneg))
  · exact .inr (.inl (Int.mul_nonpos_of_nonneg_of_nonpos m_nonneg few))
  · rcases Int.lt_or_eq_of_le m_nonneg with m_pos | rfl
    · rw [length_repetition, Int.natCast_mul, Int.toNat_of_nonneg m_nonneg, Int.mul_assoc] at room'
      have fewer : m * n + 1 ≤ m * (n + 1) := by
        rw [Int.mul_add, Int.mul_one]
        omega
      exact .inr (.inr (Int.lt_of_le_of_lt
        (Int.mul_le_mul_of_nonneg_left fewer (Int.natCast_nonneg _)) room'))
    · exact .inr (.inl (Int.le_of_eq (Int.zero_mul n)))

/-! ### What is built for it -/

theorem repeatText_of_trivial {text : String} {count : Int} (trivial : text = "" ∨ count ≤ 0) :
    repeatText text (.int count) = .ok "" := by
  have stops : (text.toList.isEmpty || !(Number.int (text.toList.length * count)).isPositive) =
      true := by
    rcases trivial with rfl | none
    · rfl
    · have small : (text.toList.length : Int) * count ≤ 0 :=
        Int.mul_nonpos_of_nonneg_of_nonpos (Int.natCast_nonneg _) none
      simp [Number.isPositive, small]
  exact if_pos stops

/-- A text is repeated if one copy more than asked for can be built. -/
theorem repeatText_of_pos {text : String} {n : Nat} (filled : text ≠ "") (pos : 0 < n) :
    repeatText text (.int n) =
      if indexLimit ≤ n + 1 then .error .countTooLarge
      else if indexLimit ≤ text.length * (n + 1) then .error .textTooLong
      else .ok (repetition text n) := by
  have length_pos : 0 < text.length := by simpa [Nat.pos_iff_ne_zero] using filled
  have goesOn : ¬ (text.toList.isEmpty ||
      !(Number.int (text.toList.length * n)).isPositive) = true := by
    have large : (0 : Int) < text.toList.length * n := by
      rw [String.length_toList]
      exact_mod_cast Nat.mul_pos length_pos pos
    simp [Number.isPositive, large, filled]
  have target : ((text.length : Int) * n).toNat = text.length * n := by
    rw [← Int.natCast_mul, Int.toNat_natCast]
  have copies : text.length * n / text.length = n := Nat.mul_div_cancel_left n length_pos
  have cut : String.ofList ((List.replicate (n + 1) text.toList).flatten.take (text.length * n)) =
      repetition text n := by
    rw [← String.length_toList, take_copies, ← String.toList_inj, String.toList_ofList,
      toList_repetition, Int.toNat_natCast]
  refine (if_neg goesOn).trans ?_
  simp only [String.length_toList, target, copies, Nat.mul_comm (n + 1), cut]
  split
  · rfl
  split <;> rfl

theorem repeatText_of_repeatable {text : String} {count : Int} (room : Repeatable text count) :
    repeatText text (.int count) = .ok (repetition text count) := by
  by_cases trivial : text = "" ∨ count ≤ 0
  · rw [repeatText_of_trivial trivial, repetition_of_trivial text count trivial]
  obtain ⟨filled, pos⟩ := not_or.mp trivial
  obtain ⟨n, rfl⟩ := Int.eq_ofNat_of_zero_le (Int.le_of_lt (Int.not_le.mp pos))
  have fits : text.length * (n + 1) < indexLimit := by
    rcases room with empty | few | room
    · exact absurd empty filled
    · exact absurd few pos
    · exact_mod_cast room
  have length_pos : 0 < text.length := by simpa [Nat.pos_iff_ne_zero] using filled
  have count : n + 1 ≤ text.length * (n + 1) := Nat.le_mul_of_pos_left _ length_pos
  rw [repeatText_of_pos filled (by omega), if_neg (by omega), if_neg (by omega)]

/-- Without room for all copies, either there are too many of them or they are too long together. -/
theorem repeatText_of_not_repeatable {text : String} {count : Int}
    (noRoom : ¬ Repeatable text count) :
    indexLimit ≤ count + 1 ∧ repeatText text (.int count) = .error .countTooLarge ∨
      count + 1 < indexLimit ∧ indexLimit ≤ text.length * (count + 1) ∧
        repeatText text (.int count) = .error .textTooLong := by
  obtain ⟨filled, pos, full⟩ : text ≠ "" ∧ ¬ count ≤ 0 ∧
      ¬ text.length * (count + 1) < (indexLimit : Int) := by
    simpa only [Repeatable, not_or] using noRoom
  obtain ⟨n, rfl⟩ := Int.eq_ofNat_of_zero_le (Int.le_of_lt (Int.not_le.mp pos))
  have long : indexLimit ≤ text.length * (n + 1) := by exact_mod_cast Int.not_lt.mp full
  rw [repeatText_of_pos filled (by omega)]
  by_cases many : indexLimit ≤ n + 1
  · exact .inl ⟨by exact_mod_cast many, if_pos many⟩
  · refine .inr ⟨by omega, by exact_mod_cast long, ?_⟩
    rw [if_neg many, if_pos long]

namespace Builtin

variable (runtime : RuntimeId) (context : Context) (rest : List Object) (yielded : Node)
variable (evaluator : Evaluator) (settings : Settings) (state : State)

/-- What `mul` does with a text and an integer, and maybe further arguments. -/
def mulText (text : String) (count : Int) : Except Interrupt Object × State :=
  (Builtin.mul.run runtime context
    (.value (.text text) :: .value (.number (.int count)) :: rest) yielded).run
      evaluator settings state

theorem mulText_of_ok {text result : String} {count : Int}
    (repeated : repeatText text (.int count) = .ok result) :
    mulText runtime context rest yielded evaluator settings state text count =
      (.ok (.value (.text result)), state) := by
  change (runMul runtime (.value (.text text)) (.value (.number (.int count)))).run evaluator
    settings state = _
  simp only [runMul, repeated]
  rfl

theorem mulText_of_error {text : String} {fault : ArithmeticFault} {count : Int}
    (failed : repeatText text (.int count) = .error fault) :
    mulText runtime context rest yielded evaluator settings state text count =
      (.error (.failure (.arithmetic fault)), state) := by
  change (runMul runtime (.value (.text text)) (.value (.number (.int count)))).run evaluator
    settings state = _
  simp only [runMul, failed]
  rfl

/-- `mul` gives the plain repetition of a text if one copy more than asked for is no longer than a
text may be, and no result otherwise. The repetition has at each place what the text has at the
remainder of the place by its length. To repeat a text and then the result is to repeat it by the
product of the counts. The state stays the same in any case. -/
theorem mulText_eq_repetition (text : String) (count : Int) :
    let apply := mulText runtime context rest yielded evaluator settings state
    let gives (s : String) (n : Int) (result : String) :=
      apply s n = (.ok (.value (.text result)), state)
    let fails (fault : ArithmeticFault) :=
      apply text count = (.error (.failure (.arithmetic fault)), state)
    (Repeatable text count → gives text count (repetition text count)) ∧
      (¬ Repeatable text count →
        indexLimit ≤ count + 1 ∧ fails .countTooLarge ∨
        count + 1 < indexLimit ∧ indexLimit ≤ text.length * (count + 1) ∧ fails .textTooLong) ∧
      (repetition text count).length = text.length * count.toNat ∧
      (∀ i < text.length * count.toNat,
        (repetition text count).toList[i]? = text.toList[i % text.length]?) ∧
      ∀ m n, 0 ≤ m → 0 ≤ n → Repeatable text m → Repeatable (repetition text m) n →
        gives (repetition text m) n (repetition text (m * n)) ∧
          gives text (m * n) (repetition text (m * n)) := by
  intro apply gives fails
  have result {s : String} {n : Int} (room : Repeatable s n) : gives s n (repetition s n) :=
    mulText_of_ok runtime context rest yielded evaluator settings state
      (repeatText_of_repeatable room)
  refine ⟨result, fun noRoom => ?_, length_repetition text count,
    fun i => getElem?_repetition text count, fun m n m_nonneg n_nonneg first second => ?_⟩
  · have failed {fault : ArithmeticFault}
        (failure : repeatText text (.int count) = .error fault) : fails fault :=
      mulText_of_error runtime context rest yielded evaluator settings state failure
    rcases repeatText_of_not_repeatable noRoom with ⟨many, failure⟩ | ⟨few, long, failure⟩
    · exact .inl ⟨many, failed failure⟩
    · exact .inr ⟨few, long, failed failure⟩
  · have twice := result second
    rw [repetition_repetition text m_nonneg n_nonneg] at twice
    exact ⟨twice, result (repeatable_mul m_nonneg n_nonneg first second)⟩

/-- Three copies of two characters, three copies of these, and more copies than can be counted. -/
theorem mulText_eq_repetition_ab :
    let apply := mulText 0 { scope := 0 } [] .absent (evaluate 0) (.quiet .empty) State.fresh
    Repeatable "ab" 3 ∧ apply "ab" 3 = (.ok (.value (.text "ababab")), State.fresh) ∧
      "ababab".toList[3]? = "ab".toList[1]? ∧
      Repeatable "ababab" 3 ∧ apply "ababab" 3 = apply "ab" 9 ∧
      ¬ Repeatable "ab" (Nat.pow 2 63) ∧
      apply "ab" (Nat.pow 2 63) =
        (.error (.failure (.arithmetic .countTooLarge)), State.fresh) := by
  intro apply
  have room : Repeatable "ab" 3 := by decide
  have room' : Repeatable "ababab" 3 := by decide
  have noRoom : ¬ Repeatable "ab" (Nat.pow 2 63) := by decide
  obtain ⟨repeats, -, -, places, again⟩ := mulText_eq_repetition 0 { scope := 0 } [] .absent
    (evaluate 0) (.quiet .empty) State.fresh "ab" 3
  obtain ⟨-, fails, -⟩ := mulText_eq_repetition 0 { scope := 0 } [] .absent (evaluate 0)
    (.quiet .empty) State.fresh "ab" (Nat.pow 2 63)
  obtain ⟨twice, atOnce⟩ := again 3 3 (by decide) (by decide) room room'
  refine ⟨room, repeats room, places 3 (by decide), room', twice.trans atOnce.symm, noRoom, ?_⟩
  rcases fails noRoom with ⟨-, failed⟩ | ⟨few, -⟩
  · exact failed
  · exact absurd few (by decide)

/-- The count may be within its limit and the text too long: two characters cannot be repeated as
often as that. -/
theorem mulText_tooLong :
    let apply := mulText 0 { scope := 0 } [] .absent (evaluate 0) (.quiet .empty) State.fresh
    Nat.pow 2 62 + 1 < indexLimit ∧
      apply "ab" (Nat.pow 2 62) = (.error (.failure (.arithmetic .textTooLong)), State.fresh) := by
  intro apply
  have tooLong : repeatText "ab" (.int (Nat.pow 2 62)) = .error .textTooLong := by
    rw [repeatText_of_pos (by decide) (by decide), if_neg (by decide), if_pos (by decide)]
  exact ⟨by decide, mulText_of_error 0 _ [] _ _ _ _ tooLong⟩

end Builtin

end TreeScript
