import TreeScript.Layout

/-!
# Quoted texts

A text is laid out between quotes with three characters escaped. Replacing these characters one
after the other, the backslash first, comes to the same as escaping every character by itself. So
the closing quote is found without knowing the text, and the text is read back from what stands
before it; nothing else is read back to the same text.
-/

namespace TreeScript.Layout

/-- Writes the replacement in place of each occurrence of a character. -/
def replaceEach (c : Char) (replacement text : List Char) : List Char :=
  text.flatMap fun d => if d = c then replacement else [d]

/-- Three replacements, each of which goes over all that the one before has left. -/
def escapedInTurn (text : List Char) : List Char :=
  let backslashes := replaceEach '\\' ['\\', '\\'] text
  let quotes := replaceEach '"' ['\\', '"'] backslashes
  replaceEach '\n' ['\\', 'n'] quotes

/-- What comes after an opening quote, up to the closing one and from there on. The closing quote is
the first one that no backslash escapes. -/
def splitAtQuote : List Char → Option (List Char × List Char)
  | [] => none
  | '"' :: rest => some ([], rest)
  | '\\' :: c :: rest => (splitAtQuote rest).map fun (inner, after) => ('\\' :: c :: inner, after)
  | c :: rest => (splitAtQuote rest).map fun (inner, after) => (c :: inner, after)

/-- The text of which the escapes are given; there is none if a character is not escaped that has to
be, or one that is never escaped. -/
def unescape : List Char → Option (List Char)
  | [] => some []
  | '\\' :: '\\' :: rest => (unescape rest).map ('\\' :: ·)
  | '\\' :: '"' :: rest => (unescape rest).map ('"' :: ·)
  | '\\' :: 'n' :: rest => (unescape rest).map ('\n' :: ·)
  | c :: rest =>
      if c = '\\' ∨ c = '"' ∨ c = '\n' then none else (unescape rest).map (c :: ·)

def escaped (text : List Char) : List Char := text.flatMap escapeChar

/-- A character that is not escaped. -/
def Plain (c : Char) : Prop := c ≠ '\\' ∧ c ≠ '"' ∧ c ≠ '\n'

variable {c : Char} {text rest written : List Char}

theorem special_or_plain (c : Char) : c = '\\' ∨ c = '"' ∨ c = '\n' ∨ Plain c := by
  simp only [Plain]
  grind

theorem escapeChar_plain (plain : Plain c) : escapeChar c = [c] := by
  obtain ⟨backslash, quote, lineFeed⟩ := plain
  unfold escapeChar
  split
  · contradiction
  · contradiction
  · contradiction
  · rfl

/-- Each replacement acts on one character of the text, whatever the others are. -/
theorem escapedInTurn_eq (text : List Char) : escapedInTurn text = escaped text := by
  simp only [escapedInTurn, replaceEach, List.flatMap_assoc]
  refine congrArg text.flatMap (funext fun c => ?_)
  rcases special_or_plain c with rfl | rfl | rfl | plain
  · rfl
  · rfl
  · rfl
  · rw [escapeChar_plain plain]
    obtain ⟨backslash, quote, lineFeed⟩ := plain
    simp [backslash, quote, lineFeed]

/-- In what is escaped there is no line feed. -/
theorem not_mem_escaped (text : List Char) : '\n' ∉ escaped text := by
  intro mem
  obtain ⟨c, -, mem⟩ := List.mem_flatMap.mp mem
  rcases special_or_plain c with rfl | rfl | rfl | plain
  · revert mem; decide
  · revert mem; decide
  · revert mem; decide
  · rw [escapeChar_plain plain, List.mem_singleton] at mem
    exact plain.2.2 mem.symm

theorem splitAtQuote_plain (plain : Plain c) (rest : List Char) :
    splitAtQuote (c :: rest) =
      (splitAtQuote rest).map fun (inner, after) => (c :: inner, after) := by
  rw [splitAtQuote]
  · exact plain.2.1
  · exact fun _ _ same => absurd same plain.1

theorem unescape_plain (plain : Plain c) (rest : List Char) :
    unescape (c :: rest) = (unescape rest).map (c :: ·) := by
  have other : ¬ (c = '\\' ∨ c = '"' ∨ c = '\n') := by simpa [Plain] using plain
  rw [unescape, if_neg other]
  · exact fun _ same => absurd same plain.1
  · exact fun _ same => absurd same plain.1
  · exact fun _ same => absurd same plain.1

/-- The closing quote is the first one that is not escaped. -/
theorem splitAtQuote_escaped (text rest : List Char) :
    splitAtQuote (escaped text ++ '"' :: rest) = some (escaped text, rest) := by
  induction text with
  | nil => rfl
  | cons c text ih =>
      rw [escaped, List.flatMap_cons, ← escaped, List.append_assoc]
      rcases special_or_plain c with rfl | rfl | rfl | plain
      · simp [escapeChar, splitAtQuote, ih]
      · simp [escapeChar, splitAtQuote, ih]
      · simp [escapeChar, splitAtQuote, ih]
      · simp [escapeChar_plain plain, splitAtQuote_plain plain, ih]

theorem unescape_escaped (text : List Char) : unescape (escaped text) = some text := by
  induction text with
  | nil => rfl
  | cons c text ih =>
      rw [escaped, List.flatMap_cons, ← escaped]
      rcases special_or_plain c with rfl | rfl | rfl | plain
      · simp [escapeChar, unescape, ih]
      · simp [escapeChar, unescape, ih]
      · simp [escapeChar, unescape, ih]
      · simp [escapeChar_plain plain, unescape_plain plain, ih]

/-- Only what is written for a text is read back to it. -/
theorem eq_escaped_of_unescape (read : unescape written = some text) : written = escaped text := by
  fun_induction unescape written generalizing text with
  | case1 =>
      cases read
      rfl
  | case2 rest ih | case3 rest ih | case4 rest ih =>
      obtain ⟨others, given, rfl⟩ := Option.map_eq_some_iff.mp read
      rw [ih given]
      rfl
  | case5 => cases read
  | case6 c rest _ _ _ other ih =>
      obtain ⟨others, given, rfl⟩ := Option.map_eq_some_iff.mp read
      have plain : Plain c := by simpa [Plain] using other
      rw [ih given, escaped, escaped, List.flatMap_cons, escapeChar_plain plain]
      rfl

theorem unescape_eq_some_iff : unescape written = some text ↔ written = escaped text :=
  ⟨eq_escaped_of_unescape, fun same => same ▸ unescape_escaped text⟩

theorem toList_textLiteral (s : String) :
    (textLiteral s).toList = '"' :: (escaped s.toList ++ ['"']) := by
  rw [textLiteral, String.toList_ofList]
  rfl

theorem not_mem_textLiteral (s : String) : '\n' ∉ (textLiteral s).toList := by
  simp [toList_textLiteral, not_mem_escaped]

/-- A text is laid out by escaping three characters, in three replacements or in one pass, and
putting quotes around. There is no line feed in what is laid out, its closing quote is its last
character, whatever comes after it, and between the quotes there is what is read back to the text
and to nothing else. So different texts are laid out differently. -/
theorem textLiteral_faithful (s : String) :
    textLiteral s = String.ofList ('"' :: escapedInTurn s.toList ++ ['"']) ∧
      escapedInTurn s.toList = s.toList.flatMap escapeChar ∧
      '\n' ∉ (textLiteral s).toList ∧
      (∀ after, ∃ rest, (textLiteral s).toList ++ after = '"' :: rest ∧
        splitAtQuote rest = some (escapedInTurn s.toList, after)) ∧
      (∀ written, unescape written = some s.toList ↔ written = escapedInTurn s.toList) ∧
      ∀ other, textLiteral other = textLiteral s ↔ other = s := by
  have inTurn : escapedInTurn s.toList = escaped s.toList := escapedInTurn_eq s.toList
  have literal : (textLiteral s).toList = '"' :: (escaped s.toList ++ ['"']) := toList_textLiteral s
  refine ⟨?_, inTurn, not_mem_textLiteral s, fun after => ?_, fun written => ?_, fun other => ?_⟩
  · rw [← String.toList_inj, literal, inTurn, String.toList_ofList]
    rfl
  · refine ⟨escaped s.toList ++ '"' :: after, ?_, ?_⟩
    · rw [literal, List.cons_append, List.append_assoc]
      rfl
    · rw [inTurn, splitAtQuote_escaped]
  · rw [inTurn, unescape_eq_some_iff]
  · constructor
    · intro same
      have inner : escaped other.toList = escaped s.toList := by
        simpa [toList_textLiteral] using congrArg String.toList same
      have read := unescape_escaped other.toList
      rw [inner, unescape_escaped, Option.some_inj, String.toList_inj] at read
      exact read.symm
    · rintro rfl
      rfl

end TreeScript.Layout
