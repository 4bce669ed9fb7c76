import TreeScript.Proofs.Session

/-!
# Integers as texts and back

An integer that is not too long is read back from its text, also if blanks come before it and
anything but another digit comes after it.
-/

namespace TreeScript.Numeral

/-! ### Digits -/

/-- The characters are the digits, one after the other. -/
def Spells (text : List Char) (digits : List Nat) : Prop :=
  text.map Text.digitValue? = digits.map some

variable {text rest : List Char} {digits : List Nat} {n : Nat}

theorem Spells.append {text' : List Char} {digits' : List Nat} (first : Spells text digits)
    (second : Spells text' digits') : Spells (text ++ text') (digits ++ digits') := by
  rw [Spells, List.map_append, List.map_append, first, second]

theorem Spells.length (spells : Spells text digits) : digits.length = text.length := by
  simpa using (congrArg List.length spells).symm

/-- All digits are found, up to what is no digit. -/
theorem spanDigits_append (spells : Spells text digits)
    (ends : ∀ c ∈ rest.head?, Text.isDigit c = false) :
    spanDigits (text ++ rest) = (digits, rest) := by
  induction text generalizing digits with
  | nil =>
      cases digits with
      | cons d digits => cases spells
      | nil =>
          cases rest with
          | nil => rfl
          | cons c rest =>
              have other : Text.digitValue? c = none := by simpa [Text.isDigit] using ends c rfl
              simp only [List.nil_append, spanDigits, other]
  | cons c text ih =>
      cases digits with
      | nil => cases spells
      | cons d digits =>
          obtain ⟨first, others⟩ := List.cons_eq_cons.mp spells
          simp only [List.cons_append, spanDigits, first, ih others]

theorem digitsValue_append_singleton (digits : List Nat) (d : Nat) :
    digitsValue (digits ++ [d]) = 10 * digitsValue digits + d := by
  rw [digitsValue, digitsValue, List.foldl_append]
  rfl

theorem digitValue?_digitChar {d : Nat} (small : d < 10) :
    Text.digitValue? d.digitChar = some d := by
  decide +revert

theorem spells_digitChar {d : Nat} (small : d < 10) : Spells [d.digitChar] [d] := by
  simp only [Spells, List.map_cons, List.map_nil, digitValue?_digitChar small]

/-- The decimal digits of a number spell its value. -/
theorem exists_spells_toDigits (n : Nat) :
    ∃ digits, Spells (Nat.toDigits 10 n) digits ∧ digitsValue digits = n := by
  induction n using Nat.strongRecOn with
  | ind n ih =>
      rcases Nat.lt_or_ge n 10 with small | large
      · rw [Nat.toDigits_of_lt_base small]
        exact ⟨[n], spells_digitChar small, by simp [digitsValue]⟩
      · obtain ⟨digits, spells, value⟩ := ih (n / 10) (by omega)
        rw [Nat.toDigits_of_base_le (by decide) large]
        refine ⟨_, spells.append (spells_digitChar (Nat.mod_lt n (by decide))), ?_⟩
        rw [digitsValue_append_singleton, value, Nat.div_add_mod]

theorem length_toDigits_le {limit : Nat} (positive : 0 < limit) (short : n < Nat.pow 10 limit) :
    (Nat.toDigits 10 n).length ≤ limit :=
  (Nat.length_toDigits_le_iff (by decide) positive).mpr short

/-- The text of a number begins with an ordinary digit. -/
theorem exists_toDigits_eq_cons (n : Nat) :
    ∃ d < 10, ∃ rest, Nat.toDigits 10 n = d.digitChar :: rest := by
  induction n using Nat.strongRecOn with
  | ind n ih =>
      rcases Nat.lt_or_ge n 10 with small | large
      · exact ⟨n, small, [], Nat.toDigits_of_lt_base small⟩
      · obtain ⟨d, small, rest, begins⟩ := ih (n / 10) (by omega)
        exact ⟨d, small, _, by rw [Nat.toDigits_of_base_le (by decide) large, begins]; rfl⟩

theorem writable_iff (i : Int) : writable i = true ↔ i.natAbs < Nat.pow 10 digitLimit := by
  rw [writable, decide_eq_true_iff]

/-! ### The integer at the start of a text -/

theorem digitChar_plain {d : Nat} (small : d < 10) :
    Text.isBlank d.digitChar = false ∧ d.digitChar ≠ '-' ∧ d.digitChar ≠ '+' := by
  decide +revert

/-- Blanks before something else are dropped. -/
theorem trimLeft_append {blanks : List Char} (blank : ∀ c ∈ blanks, Text.isBlank c = true)
    {c : Char} (plain : Text.isBlank c = false) :
    Text.trimLeft (blanks ++ c :: rest) = c :: rest := by
  rw [Text.trimLeft, List.dropWhile_append_of_pos blank,
    List.dropWhile_cons_of_neg (by simp [plain])]

theorem takeSign_of_ne {c : Char} (minus : c ≠ '-') (plus : c ≠ '+') :
    takeSign (c :: rest) = (false, c :: rest) := by
  unfold takeSign
  split
  next same => exact absurd (List.cons_eq_cons.mp same).1 minus
  next same => exact absurd (List.cons_eq_cons.mp same).1 plus
  · rfl

/-- After the sign, the digits of a number are read up to what is no digit. -/
theorem leadingInteger?_of_takeSign {negative : Bool} (short : n < Nat.pow 10 digitLimit)
    (ends : ∀ c ∈ rest.head?, Text.isDigit c = false)
    (begins : takeSign (Text.trimLeft text) = (negative, Nat.toDigits 10 n ++ rest)) :
    leadingInteger? text = some (.ok (signed negative n)) := by
  obtain ⟨digits, spells, value⟩ := exists_spells_toDigits n
  have few : ¬ digitLimit < digits.length := by
    rw [spells.length]
    exact Nat.not_lt.mpr (length_toDigits_le (by decide) short)
  have read : boundedValue digits = .ok n := by rw [boundedValue, if_neg few, value]
  simp only [leadingInteger?, begins, spanDigits_append spells ends]
  cases digits with
  | nil =>
      obtain ⟨d, -, others, first⟩ := exists_toDigits_eq_cons n
      rw [first] at spells
      cases spells
  | cons d digits => simp only [read, Except.map]

/-- An integer is read back from its text, whatever blanks come before it and whatever comes after
it, as long as that does not begin with a digit. -/
theorem leadingInteger?_integerText {i : Int} (short : i.natAbs < Nat.pow 10 digitLimit)
    {blanks : List Char} (blank : ∀ c ∈ blanks, Text.isBlank c = true)
    (ends : ∀ c ∈ rest.head?, Text.isDigit c = false) :
    leadingInteger? (blanks ++ (integerText i).toList ++ rest) = some (.ok i) := by
  cases i with
  | ofNat n =>
      have begins : takeSign (Text.trimLeft (blanks ++ (integerText (.ofNat n)).toList ++ rest)) =
          (false, Nat.toDigits 10 n ++ rest) := by
        obtain ⟨d, small, others, first⟩ := exists_toDigits_eq_cons n
        obtain ⟨plain, minus, plus⟩ := digitChar_plain small
        rw [integerText, Nat.toList_repr, first, List.append_assoc, List.cons_append,
          trimLeft_append blank plain, takeSign_of_ne minus plus]
      exact leadingInteger?_of_takeSign short ends begins
  | negSucc n =>
      have begins : takeSign (Text.trimLeft (blanks ++ (integerText (.negSucc n)).toList ++ rest)) =
          (true, Nat.toDigits 10 (n + 1) ++ rest) := by
        rw [integerText, String.toList_append, Nat.toList_repr, List.append_assoc]
        exact congrArg takeSign (trimLeft_append blank (by decide : Text.isBlank '-' = false))
      exact leadingInteger?_of_takeSign short ends begins

end TreeScript.Numeral

namespace TreeScript.Builtin

open Numeral

variable (runtime : RuntimeId) (context : Context) (arguments : List Object) (yielded : Node)
variable (evaluator : Evaluator) (settings : Settings) (state : State)

/-- `num` undoes `str` on an integer that is not too long, and it reads such an integer from any
text that begins with blanks and the text of the integer and does not go on with a digit. In both
cases the state stays the same. -/
theorem num_str (n : Int) (short : n.natAbs < Nat.pow 10 digitLimit) :
    let apply (builtin : Builtin) (value : Value) :=
      (builtin.run runtime context (.value value :: arguments) yielded).run evaluator settings state
    let shown := Layout.display (.value (.number (.int n)))
    (∀ blanks rest : String, (∀ c ∈ blanks.toList, Text.isBlank c = true) →
        (∀ c ∈ rest.toList.head?, Text.isDigit c = false) →
        apply .num (.text (blanks ++ shown ++ rest)) = (.ok (.value (.number (.int n))), state)) ∧
      apply .str (.number (.int n)) = (.ok (.value (.text shown)), state) ∧
      apply .num (.text shown) = (.ok (.value (.number (.int n))), state) := by
  intro apply shown
  have reads (blanks rest : String) (blank : ∀ c ∈ blanks.toList, Text.isBlank c = true)
      (ends : ∀ c ∈ rest.toList.head?, Text.isDigit c = false) :
      apply .num (.text (blanks ++ shown ++ rest)) = (.ok (.value (.number (.int n))), state) := by
    have read : leadingInteger? (blanks ++ shown ++ rest).toList = some (.ok n) := by
      rw [String.toList_append, String.toList_append]
      exact leadingInteger?_integerText short blank ends
    change (runNum runtime (.value (.text _))).run evaluator settings state = _
    simp only [runNum, Layout.display, read]
    rfl
  refine ⟨reads, ?_, ?_⟩
  · have writable : (Value.number (.int n)).writable = true := (writable_iff n).mpr short
    change (runStr (.value (.number (.int n)))).run evaluator settings state = _
    simp only [runStr, Rule.displayed, Object.value?, Option.map_some, Option.getD_some, writable,
      if_true]
    rfl
  · simpa using reads "" "" (by simp) (by simp)

/-- A negative number between blanks and other text. -/
theorem num_str_negative :
    let apply (builtin : Builtin) (value : Value) :=
      (builtin.run 0 { scope := 0 } [.value value] .absent).run (evaluate 0) (.quiet .empty)
        State.fresh
    apply .num (.text "\t -42.5") = (.ok (.value (.number (.int (-42)))), State.fresh) ∧
      apply .str (.number (.int (-42))) = (.ok (.value (.text "-42")), State.fresh) ∧
      apply .num (.text "-42") = (.ok (.value (.number (.int (-42)))), State.fresh) := by
  have short : (-42 : Int).natAbs < Nat.pow 10 digitLimit := by decide +kernel
  obtain ⟨reads, shows, back⟩ := num_str 0 { scope := 0 } [] .absent (evaluate 0)
    (.quiet .empty) State.fresh (-42) short
  have blank : ∀ c ∈ "\t ".toList, Text.isBlank c = true := List.all_eq_true.mp (by decide)
  have ends : ∀ c ∈ ".5".toList.head?, Text.isDigit c = false := by
    rintro c ⟨⟩
    decide
  exact ⟨reads "\t " ".5" blank ends, shows, back⟩

end TreeScript.Builtin
