import TreeScript.Proofs.LayoutRoom
import TreeScript.Proofs.QuotedTexts

/-!
# Nested layout

A tree that stands at a level is laid out as at the top, with the indentation of the level after
each line feed. The first line is left to whoever puts the text in its place. Only a program and a
list, whose statements have no braces around them, indent their first line themselves, although a
block has indented it already; so there the first statement is indented twice.
-/

namespace TreeScript

namespace Node

mutual

/-- The names that the text of a tree shows. -/
def names : Node → List String
  | list _ items => namesAll items
  | call name parameters yielded _ => name :: (namesAll parameters ++ names yielded)
  | block body _ | program body _ | group body _ => namesAll body
  | memory name _ | moduleImport name _ => [name]
  | _ => []

def namesAll : List Node → List String
  | [] => []
  | node :: rest => names node ++ namesAll rest

end

mutual

/-- How many first lines of a tree are indented by a program or a list. -/
def overhangs : Node → Nat
  | list _ items => overhangsAll items + if items.isEmpty then 0 else 1
  | call _ parameters yielded _ => overhangsAll parameters + overhangs yielded
  | block body _ | group body _ => overhangsAll body
  | program body _ => overhangsAll body + if body.isEmpty then 0 else 1
  | _ => 0

def overhangsAll : List Node → Nat
  | [] => 0
  | node :: rest => overhangs node + overhangsAll rest

end

/-- The tree stands in another one, with so many of its blocks around it. -/
inductive StandsIn (inner : Node) : Nat → Node → Prop
  | here : StandsIn inner 0 inner
  | item {depth mark : Nat} {node : Node} {items : List Node} (mem : node ∈ items) :
      StandsIn inner depth node → StandsIn inner depth (.list mark items)
  | parameter {depth : Nat} {name : String} {node yielded : Node} {parameters : List Node}
      {origin : Origin} (mem : node ∈ parameters) :
      StandsIn inner depth node → StandsIn inner depth (.call name parameters yielded origin)
  | yielded {depth : Nat} {name : String} {yielded : Node} {parameters : List Node}
      {origin : Origin} :
      StandsIn inner depth yielded → StandsIn inner depth (.call name parameters yielded origin)
  | block {depth : Nat} {node : Node} {body : List Node} {origin : Origin} (mem : node ∈ body) :
      StandsIn inner depth node → StandsIn inner (depth + 1) (.block body origin)
  | program {depth : Nat} {node : Node} {body : List Node} {origin : Origin} (mem : node ∈ body) :
      StandsIn inner depth node → StandsIn inner depth (.program body origin)
  | group {depth : Nat} {node : Node} {body : List Node} {origin : Origin} (mem : node ∈ body) :
      StandsIn inner depth node → StandsIn inner depth (.group body origin)

end Node

namespace Layout

variable {amount extra width level base : Nat} {text before after : String}

/-! ### Indented texts -/

/-- There is no line feed in the text. -/
def Unbroken (text : String) : Prop := '\n' ∉ text.toList

instance (text : String) : Decidable (Unbroken text) :=
  inferInstanceAs (Decidable ('\n' ∉ text.toList))

def lineFeeds (text : String) : Nat := text.toList.count '\n'

/-- The text with blanks after each line feed. -/
def indented (amount : Nat) (text : String) : String :=
  String.ofList (text.toList.flatMap fun c =>
    if c = '\n' then '\n' :: List.replicate amount ' ' else [c])

theorem lineFeeds_append (first second : String) :
    lineFeeds (first ++ second) = lineFeeds first + lineFeeds second := by
  rw [lineFeeds, String.toList_append, List.count_append]
  rfl

theorem indented_append (amount : Nat) (first second : String) :
    indented amount (first ++ second) = indented amount first ++ indented amount second := by
  simp only [indented, String.toList_append, List.flatMap_append, String.ofList_append]

theorem length_indented (amount : Nat) (text : String) :
    (indented amount text).length = text.length + amount * lineFeeds text := by
  rw [indented, lineFeeds, String.length_ofList, ← String.length_toList]
  induction text.toList with
  | nil => rfl
  | cons c chars ih =>
      rw [List.flatMap_cons, List.length_append, ih]
      by_cases feed : c = '\n'
      · simp only [feed, if_true, List.length_cons, List.length_replicate, List.count_cons_self,
          Nat.mul_add, Nat.mul_one]
        omega
      · simp only [feed, if_false, List.length_cons, List.length_nil,
          List.count_cons_of_ne feed]
        omega

theorem Unbroken.lineFeeds (unbroken : Unbroken text) : lineFeeds text = 0 :=
  List.count_eq_zero.mpr unbroken

theorem Unbroken.indented (unbroken : Unbroken text) : indented amount text = text := by
  rw [← String.toList_inj, Layout.indented, String.toList_ofList]
  rw [Unbroken] at unbroken
  generalize text.toList = chars at unbroken ⊢
  induction chars with
  | nil => rfl
  | cons c chars ih =>
      obtain ⟨other, others⟩ := not_or.mp (mt List.mem_cons.mpr unbroken)
      rw [List.flatMap_cons, ih others, if_neg (Ne.symm other)]
      rfl

theorem Unbroken.append {second : String} (first : Unbroken text) (rest : Unbroken second) :
    Unbroken (text ++ second) := by
  rw [Unbroken, String.toList_append, List.mem_append]
  exact not_or.mpr ⟨first, rest⟩

/-! ### Texts without a line feed -/

theorem not_mem_repr (n : Nat) : '\n' ∉ n.repr.toList := by
  intro mem
  rw [Nat.toList_repr] at mem
  exact absurd (Nat.isDigit_of_mem_toDigits (by decide) (by decide) mem) (by decide)

theorem unbroken_integerText (i : Int) : Unbroken (Numeral.integerText i) := by
  cases i with
  | ofNat n => exact not_mem_repr n
  | negSucc n => exact (show Unbroken "-" by decide).append (not_mem_repr (n + 1))

theorem not_mem_exponentText (e : Int) : '\n' ∉ Numeral.exponentText e := by
  have digits := not_mem_repr e.natAbs
  simp only [Numeral.exponentText]
  grind

theorem not_mem_layout (d : Numeral.Decimal) : '\n' ∉ Numeral.layout d := by
  have digits := not_mem_repr d.digits
  have exponent := not_mem_exponentText
  simp only [Numeral.layout]
  grind

theorem unbroken_realText (x : Float) : Unbroken (Numeral.realText x) := by
  rw [Numeral.realText]
  split
  · decide
  · split <;> decide
  · rename_i negative m q _
    have digits := not_mem_layout (Numeral.shortest m q)
    rw [Unbroken, String.toList_ofList]
    grind

theorem unbroken_display (n : Number) : Unbroken n.display := by
  cases n with
  | int i => exact unbroken_integerText i
  | real x =>
      rw [Number.display]
      split
      · decide
      · split <;> decide
      · cases (Number.real x).normalize with
        | int i => exact unbroken_integerText i
        | real y => exact unbroken_realText y

/-! ### Texts at a deeper level -/

/-- The second text is the first one with more indentation: there are `amount` blanks more after
each line feed and at `extra` other places. -/
structure Deeper (amount extra : Nat) (before after : String) : Prop where
  length : after.length = before.length + amount * (lineFeeds before + extra)
  same : amount * extra = 0 → after = indented amount before

/-- Nothing but line feeds is followed by more blanks just if there are no other places. -/
theorem Deeper.eq_indented_iff (deeper : Deeper amount extra before after) :
    after = indented amount before ↔ amount * extra = 0 := by
  refine ⟨fun same => ?_, deeper.same⟩
  -- Blanks at other places show in the length, wherever they are.
  have lengths := deeper.length
  rw [same, length_indented, Nat.mul_add] at lengths
  omega

theorem Deeper.of_eq_indented (same : after = indented amount before) :
    Deeper amount 0 before after :=
  ⟨by rw [same, length_indented, Nat.add_zero], fun _ => same⟩

theorem Deeper.refl (text : String) (unbroken : Unbroken text) : Deeper amount 0 text text :=
  .of_eq_indented unbroken.indented.symm

theorem Deeper.append {before' after' : String} {extra' : Nat}
    (first : Deeper amount extra before after) (second : Deeper amount extra' before' after') :
    Deeper amount (extra + extra') (before ++ before') (after ++ after') where
  length := by
    rw [String.length_append, String.length_append, first.length, second.length,
      lineFeeds_append]
    simp only [Nat.mul_add]
    omega
  same none := by
    rw [Nat.mul_add] at none
    rw [indented_append, first.same (by omega), second.same (by omega)]

theorem unbroken_indentation (width level : Nat) : Unbroken (indentation width level) := by
  rw [Unbroken, indentation, String.toList_ofList, List.mem_replicate]
  exact fun both => absurd both.2 (by decide)

theorem indentation_add (width level base : Nat) :
    indentation width (level + base) = indentation width level ++ indentation width base := by
  rw [indentation, Nat.mul_add, ← List.replicate_append_replicate, String.ofList_append]
  rfl

/-- The indentation of a line is part of what follows a line feed. -/
theorem deeper_newLine (width level base : Nat) :
    Deeper (width * level) 0 ("\n" ++ indentation width base)
      ("\n" ++ indentation width (level + base)) := by
  apply Deeper.of_eq_indented
  rw [indented_append, (unbroken_indentation width base).indented, indentation_add,
    ← String.append_assoc]
  refine congrArg (· ++ indentation width base) ?_
  rw [← String.toList_inj]
  simp [indented, indentation]

/-- An indentation that follows no line feed is a further place. -/
theorem deeper_indentation (width level base : Nat) :
    Deeper (width * level) 1 (indentation width base) (indentation width (level + base)) where
  length := by
    rw [(unbroken_indentation width base).lineFeeds, indentation_add, String.length_append]
    simp only [indentation, String.length_ofList, List.length_replicate]
    omega
  same none := by
    rw [(unbroken_indentation width base).indented, indentation_add]
    rw [Nat.mul_one] at none
    simp only [indentation, none, List.replicate_zero, String.ofList_nil, String.empty_append]

/-- Texts that are deeper one by one, with the number of further places in all of them. -/
inductive DeeperAll (amount : Nat) : Nat → List String → List String → Prop
  | nil : DeeperAll amount 0 [] []
  | cons {extra extra' : Nat} {before after : String} {befores afters : List String}
      (first : Deeper amount extra before after) (rest : DeeperAll amount extra' befores afters) :
      DeeperAll amount (extra + extra') (before :: befores) (after :: afters)

/-! ### Joined texts -/

theorem intercalate_cons (separator text : String) (rest : List String) :
    separator.intercalate (text :: rest) = text ++ String.join (rest.map (separator ++ ·)) := by
  induction rest generalizing text with
  | nil => simp
  | cons next rest ih =>
      rw [String.intercalate_cons_cons, ih next, List.map_cons, String.join_cons,
        String.append_assoc, String.append_assoc]

/-- Statements on lines of their own, each after a line feed. -/
def lines (width level : Nat) (texts : List String) : String :=
  String.join (texts.map ("\n" ++ indentation width level ++ ·))

theorem statements_cons (width level : Nat) (text : String) (rest : List String) :
    statements width level (text :: rest) =
      indentation width level ++ text ++ lines width level rest := by
  rw [statements, List.map_cons, intercalate_cons, List.map_map, lines]
  simp only [Function.comp_def, String.append_assoc]

theorem lines_cons (width level : Nat) (text : String) (rest : List String) :
    lines width level (text :: rest) =
      "\n" ++ indentation width level ++ text ++ lines width level rest := by
  rw [lines, List.map_cons, String.join_cons]
  rfl

theorem block_cons (width level : Nat) (text : String) (rest : List String) :
    block width level (text :: rest) =
      "\x7b" ++ lines width (level + 1) (text :: rest) ++ "\n" ++ indentation width level ++
        "\x7d" := by
  have opening : "\x7b\n" = "\x7b" ++ "\n" := rfl
  rw [block, List.isEmpty_cons, if_neg (by decide), statements_cons, lines_cons, opening]
  simp only [String.append_assoc]

theorem DeeperAll.join {separator separator' : String} {befores afters : List String}
    (apart : Deeper amount 0 separator separator') (all : DeeperAll amount extra befores afters) :
    Deeper amount extra (String.join (befores.map (separator ++ ·)))
      (String.join (afters.map (separator' ++ ·))) := by
  induction all with
  | nil => exact .refl "" (by decide)
  | cons first rest ih =>
      simp only [List.map_cons, String.join_cons]
      rw [← Nat.zero_add (_ + _), ← Nat.add_assoc]
      exact (apart.append first).append ih

theorem DeeperAll.lines {befores afters : List String} (base : Nat)
    (all : DeeperAll (width * level) extra befores afters) :
    Deeper (width * level) extra (lines width base befores) (lines width (level + base) afters) :=
  all.join (deeper_newLine width level base)

theorem DeeperAll.statements {befores afters : List String} (base : Nat)
    (all : DeeperAll (width * level) extra befores afters) :
    Deeper (width * level) (extra + if befores.isEmpty then 0 else 1)
      (statements width base befores) (statements width (level + base) afters) := by
  cases all with
  | nil => exact .refl "" (by decide)
  | cons first rest =>
      rw [statements_cons, statements_cons, List.isEmpty_cons, if_neg (by decide), Nat.add_comm _ 1,
        ← Nat.add_assoc]
      exact ((deeper_indentation width level base).append first).append (rest.lines base)

theorem DeeperAll.block {befores afters : List String} (base : Nat)
    (all : DeeperAll (width * level) extra befores afters) :
    Deeper (width * level) extra (block width base befores)
      (block width (level + base) afters) := by
  cases all with
  | nil => exact .refl "\x7b\x7d" (by decide)
  | cons first rest =>
      have inner := (DeeperAll.cons first rest).lines (base + 1)
      have opening : Deeper (width * level) 0 "\x7b" "\x7b" := .refl _ (by decide)
      have closing : Deeper (width * level) 0 "\x7d" "\x7d" := .refl _ (by decide)
      have whole := ((opening.append inner).append (deeper_newLine width level base)).append closing
      rw [block_cons, block_cons]
      simpa only [Nat.zero_add, Nat.add_zero, Nat.add_assoc, String.append_assoc] using whole

theorem DeeperAll.parenthesized {befores afters : List String}
    (all : DeeperAll amount extra befores afters) :
    Deeper amount extra (parenthesized befores) (parenthesized afters) := by
  have separator : Deeper amount 0 ", " ", " := .refl _ (by decide)
  have opening : Deeper amount 0 "(" "(" := .refl _ (by decide)
  have closing : Deeper amount 0 ")" ")" := .refl _ (by decide)
  cases all with
  | nil => exact .refl _ (by decide)
  | cons first rest =>
      have whole := (opening.append (first.append (rest.join separator))).append closing
      rw [Layout.parenthesized, Layout.parenthesized, intercalate_cons, intercalate_cons]
      simpa only [Nat.zero_add, Nat.add_zero] using whole

/-! ### The text of a tree at a deeper level -/

theorem nodeTexts_eq_map (width level : Nat) (nodes : List Node) :
    nodeTexts width level nodes = nodes.map (nodeText width level) := by
  induction nodes with
  | nil => rfl
  | cons node rest ih => rw [nodeTexts, ih, List.map_cons]

theorem isEmpty_nodeTexts (width level : Nat) (nodes : List Node) :
    (nodeTexts width level nodes).isEmpty = nodes.isEmpty := by
  rw [nodeTexts_eq_map, List.isEmpty_map]

mutual

/-- The text of a tree is deeper by the level below which it stands. -/
theorem nodeText_deeper (width level base : Nat) (node : Node)
    (unbroken : ∀ name ∈ node.names, Unbroken name) :
    Deeper (width * level) node.overhangs (nodeText width base node)
      (nodeText width (level + base) node) := by
  cases node with
  | absent => exact .refl absentText (by decide)
  | number n _ => exact .refl _ (unbroken_display n)
  | text s _ => exact .refl _ (not_mem_textLiteral s)
  | boolean b _ => exact .refl (booleanText b) (by cases b <;> decide)
  | memory name _ =>
      have inner : Unbroken name := unbroken name (by simp [Node.names])
      exact .refl _ (((show Unbroken "<" by decide).append inner).append (by decide))
  | moduleImport name _ =>
      have inner : Unbroken name := unbroken name (by simp [Node.names])
      exact .refl _ ((show Unbroken "need " by decide).append inner)
  | list _ items | program items _ =>
      -- Here the first line is indented as well, which nobody around knows of.
      have all := nodeTexts_deeper width level base items unbroken
      have whole := all.statements base
      rwa [isEmpty_nodeTexts] at whole
  | block body _ => exact (nodeTexts_deeper width level (base + 1) body unbroken).block base
  | group body _ => exact (nodeTexts_deeper width level base body unbroken).parenthesized
  | call name parameters yielded _ =>
      have own : Unbroken name := unbroken name (by simp [Node.names])
      have opening : Deeper (width * level) 0 name name := .refl name own
      have arguments := (nodeTexts_deeper width level base parameters fun name mem =>
        unbroken name (by simp [Node.names, mem])).parenthesized
      by_cases none : yielded = .absent
      · subst none
        have whole := opening.append arguments
        rwa [Nat.zero_add] at whole
      · have separator : Deeper (width * level) 0 ": " ": " := .refl _ (by decide)
        have inner := nodeText_deeper width level base yielded fun name mem =>
          unbroken name (by simp [Node.names, mem])
        have whole := ((opening.append arguments).append separator).append inner
        rw [nodeText_call width base _ _ _ none, nodeText_call width (level + base) _ _ _ none]
        rwa [Nat.zero_add, Nat.add_zero] at whole

theorem nodeTexts_deeper (width level base : Nat) (nodes : List Node)
    (unbroken : ∀ name ∈ Node.namesAll nodes, Unbroken name) :
    DeeperAll (width * level) (Node.overhangsAll nodes) (nodeTexts width base nodes)
      (nodeTexts width (level + base) nodes) := by
  match nodes with
  | [] => exact .nil
  | node :: rest =>
      refine .cons (nodeText_deeper width level base node fun name mem => ?_)
        (nodeTexts_deeper width level base rest fun name mem => ?_)
      · exact unbroken name (List.mem_append_left _ mem)
      · exact unbroken name (List.mem_append_right _ mem)

end

/-! ### Statements on lines of their own -/

theorem infix_join {texts : List String} (mem : text ∈ texts) :
    text.toList <:+: (String.join texts).toList := by
  rw [String.toList_join, List.flatMap_def]
  exact List.infix_of_mem_flatten (List.mem_map_of_mem mem)

theorem infix_append_left {part : List Char} (inside : part <:+: before.toList) (after : String) :
    part <:+: (before ++ after).toList := by
  rw [String.toList_append]
  exact inside.trans (List.prefix_append _ _).isInfix

theorem infix_append_right {part : List Char} (before : String) (inside : part <:+: after.toList) :
    part <:+: (before ++ after).toList := by
  rw [String.toList_append]
  exact inside.trans (List.suffix_append _ _).isInfix

theorem infix_separated {separator : String} {texts : List String} (mem : text ∈ texts) :
    text.toList <:+: (String.join (texts.map (separator ++ ·))).toList :=
  (infix_append_right separator (List.infix_refl _)).trans
    (infix_join (List.mem_map_of_mem mem))

theorem infix_parenthesized {texts : List String} (mem : text ∈ texts) :
    text.toList <:+: (parenthesized texts).toList := by
  refine infix_append_left (infix_append_right _ ?_) _
  cases texts with
  | nil => cases mem
  | cons first rest =>
      rw [intercalate_cons]
      rcases List.mem_cons.mp mem with rfl | mem
      · exact infix_append_left (List.infix_refl _) _
      · exact infix_append_right _ (infix_separated mem)

theorem infix_lines {texts : List String} (mem : text ∈ texts) :
    text.toList <:+: (lines width level texts).toList :=
  infix_separated mem

theorem infix_statements {texts : List String} (mem : text ∈ texts) :
    text.toList <:+: (statements width level texts).toList := by
  cases texts with
  | nil => cases mem
  | cons first rest =>
      rw [statements_cons]
      rcases List.mem_cons.mp mem with rfl | mem
      · exact infix_append_left (infix_append_right _ (List.infix_refl _)) _
      · exact infix_append_right _ (infix_lines mem)

/-- After the last statement comes a line feed, as after all others. -/
theorem exists_lines_newLine (width level : Nat) (texts : List String) :
    ∃ after, lines width level texts ++ "\n" = "\n" ++ after := by
  cases texts with
  | nil => exact ⟨"", rfl⟩
  | cons first rest => exact ⟨_, by rw [lines_cons, String.append_assoc, String.append_assoc,
      String.append_assoc]⟩

/-- Each statement stands after a line feed and the indentation, and before a line feed. -/
theorem infix_lines_newLine (width level : Nat) {texts : List String} (mem : text ∈ texts) :
    ("\n" ++ indentation width level ++ text ++ "\n").toList <:+:
      (lines width level texts ++ "\n").toList := by
  induction texts with
  | nil => cases mem
  | cons first rest ih =>
      rw [lines_cons, @String.append_assoc _ (lines width level rest)]
      rcases List.mem_cons.mp mem with rfl | mem
      · obtain ⟨after, ends⟩ := exists_lines_newLine width level rest
        rw [ends, ← String.append_assoc]
        exact infix_append_left (List.infix_refl _) _
      · exact infix_append_right _ (ih mem)

theorem infix_block {texts : List String} (mem : text ∈ texts) :
    ("\n" ++ indentation width (level + 1) ++ text ++ "\n").toList <:+:
      (block width level texts).toList := by
  cases texts with
  | nil => cases mem
  | cons first rest =>
      have inner := infix_lines_newLine width (level + 1) mem
      rw [block_cons, @String.append_assoc "\x7b"]
      exact infix_append_left (infix_append_left (infix_append_right _ inner) _) _

theorem mem_nodeTexts {node : Node} {nodes : List Node} (mem : node ∈ nodes) :
    nodeText width level node ∈ nodeTexts width level nodes := by
  rw [nodeTexts_eq_map]
  exact List.mem_map_of_mem mem

/-- A tree that stands in another one is laid out at the level of the other one and one more for
each block around it. -/
theorem infix_nodeText {inner node : Node} {depth : Nat} (stands : inner.StandsIn depth node)
    (shown : inner ≠ .absent) (level : Nat) :
    (nodeText width (level + depth) inner).toList <:+: (nodeText width level node).toList := by
  induction stands generalizing level with
  | here => exact List.infix_refl _
  | item mem _ ih | program mem _ ih =>
      exact (ih level).trans (infix_statements (mem_nodeTexts mem))
  | group mem _ ih => exact (ih level).trans (infix_parenthesized (mem_nodeTexts mem))
  | block mem _ ih =>
      rw [Nat.add_comm _ 1, ← Nat.add_assoc]
      refine (ih (level + 1)).trans (List.IsInfix.trans ?_ (infix_block (mem_nodeTexts mem)))
      exact infix_append_left (infix_append_right _ (List.infix_refl _)) _
  | @parameter _ name _ yielded _ _ mem _ ih =>
      have argument := (ih level).trans (infix_parenthesized (mem_nodeTexts mem))
      by_cases none : yielded = .absent
      · subst none
        exact infix_append_right name argument
      · rw [nodeText_call _ _ _ _ _ none]
        exact infix_append_left (infix_append_left (infix_append_right name argument) _) _
  | @yielded _ name yielded _ _ stands ih =>
      -- A call does not show an absent yield subtree, but then nothing else stands in it.
      have some : yielded ≠ .absent := by
        rintro rfl
        cases stands
        exact shown rfl
      rw [nodeText_call _ _ _ _ _ some]
      exact infix_append_right _ (ih level)

/-! ### Layout at a level -/

theorem shown_tree_of_clear (heap : Heap) {room : Nat} (width level : Nat) {node : Node}
    (clear : nodeObstacle? room node = none) :
    shown heap room width level (.tree node) = .ok (nodeText width level node) := by
  simp only [shown, objectObstacle?, clear, objectText]

/-- What stands in the way of a tree is the same at all levels. -/
theorem shown_tree_of_obstacle (heap : Heap) {room : Nat} (width level : Nat) {node : Node}
    {obstacle : Obstacle} (found : nodeObstacle? room node = some obstacle) :
    shown heap room width level (.tree node) = .error obstacle := by
  simp only [shown, objectObstacle?, found]

/-- Below a level nothing but line feeds is followed by more blanks just if no first line is
indented by a program or a list. -/
theorem shown_tree_eq_indented_iff (heap : Heap) (room width level : Nat) (node : Node)
    (unbroken : ∀ name ∈ node.names, Unbroken name) :
    shown heap room width level (.tree node) =
        (shown heap room width 0 (.tree node)).map (indented (width * level)) ↔
      nodeObstacle? room node ≠ none ∨ width * level = 0 ∨ node.overhangs = 0 := by
  cases found : nodeObstacle? room node with
  | some obstacle =>
      rw [shown_tree_of_obstacle heap width level found, shown_tree_of_obstacle heap width 0 found]
      simp [Except.map]
  | none =>
      have deeper := nodeText_deeper width level 0 node unbroken
      rw [Nat.add_zero] at deeper
      rw [shown_tree_of_clear heap width level found, shown_tree_of_clear heap width 0 found,
        Except.map, Except.ok.injEq, deeper.eq_indented_iff, Nat.mul_eq_zero]
      simp

end Layout

namespace Node

variable {node inner : Node} {nodes : List Node} {depth : Nat}

theorem names_subset_namesAll (mem : node ∈ nodes) : node.names ⊆ namesAll nodes := by
  induction nodes with
  | nil => cases mem
  | cons first rest ih =>
      rcases List.mem_cons.mp mem with rfl | mem
      · exact List.subset_append_left _ _
      · exact fun name own => List.mem_append_right _ (ih mem own)

theorem StandsIn.names_subset (stands : inner.StandsIn depth node) : inner.names ⊆ node.names := by
  induction stands with
  | here => exact List.Subset.refl _
  | item mem _ ih | block mem _ ih | program mem _ ih | group mem _ ih =>
      exact fun name own => names_subset_namesAll mem (ih own)
  | parameter mem _ ih =>
      exact fun name own => List.mem_cons_of_mem _
        (List.mem_append_left _ (names_subset_namesAll mem (ih own)))
  | yielded _ ih =>
      exact fun name own => List.mem_cons_of_mem _ (List.mem_append_right _ (ih own))

/-- What stands in a tree that can be laid out can be laid out by itself. -/
theorem StandsIn.clear (stands : inner.StandsIn depth node) {room : Nat}
    (clear : Layout.nodeObstacle? room node = none) : Layout.nodeObstacle? room inner = none := by
  induction stands with
  | here => exact clear
  | item mem _ ih | program mem _ ih | group mem _ ih => exact ih (Layout.parts_clear clear mem)
  | parameter mem _ ih => exact ih (Layout.argument_clear clear mem)
  | yielded _ ih => exact ih (Layout.call_clear clear).2
  | block mem _ ih => exact ih (Layout.statement_clear clear mem)

end Node

namespace Layout

/-- At a level a tree is laid out as at the top, with the indentation of the level after each line
feed, just if something stands in the way of its text, there is no indentation, or no program and
no list in it holds a statement. In the text each statement of a block stands on lines of its own,
indented by one level for each block around it; and so does its text there relate to its text at the
top. With enough room, only an integer with too many digits can stand in the way. -/
theorem layout_at_level_iff (heap : Heap) (room width level : Nat) (node : Node)
    (unbroken : ∀ name ∈ node.names, Unbroken name) :
    (shown heap room width level (.tree node) =
        (shown heap room width 0 (.tree node)).map (indented (width * level)) ↔
      nodeObstacle? room node ≠ none ∨ width * level = 0 ∨ node.overhangs = 0) ∧
    (∀ text, shown heap room width level (.tree node) = .ok text →
      ∀ depth body origin, (Node.block body origin).StandsIn depth node → ∀ statement ∈ body,
        ∃ own top,
          shown heap room width (level + depth + 1) (.tree statement) = .ok own ∧
          shown heap room width 0 (.tree statement) = .ok top ∧
          ("\n" ++ indentation width (level + depth + 1) ++ own ++ "\n").toList <:+: text.toList ∧
          (own = indented (width * (level + depth + 1)) top ↔
            width = 0 ∨ statement.overhangs = 0)) ∧
    Shallow (nodeObstacle? · node) := by
  refine ⟨shown_tree_eq_indented_iff heap room width level node unbroken, ?_,
    shallow_nodeObstacle? node⟩
  intro text laid depth body origin stands statement mem
  cases clear : nodeObstacle? room node with
  | some obstacle => cases (shown_tree_of_obstacle heap width level clear).symm.trans laid
  | none =>
      obtain rfl := Except.ok.inj ((shown_tree_of_clear heap width level clear).symm.trans laid)
      have inBlock : statement.StandsIn 1 (.block body origin) := .block mem .here
      have own := inBlock.clear (stands.clear clear)
      have names : ∀ name ∈ statement.names, Unbroken name := fun name shows =>
        unbroken name (stands.names_subset (inBlock.names_subset shows))
      have deeper := nodeText_deeper width (level + depth + 1) 0 statement names
      refine ⟨_, _, shown_tree_of_clear heap width _ own, shown_tree_of_clear heap width 0 own,
        ?_, ?_⟩
      · exact (infix_block (mem_nodeTexts mem)).trans
          (infix_nodeText stands (fun same => nomatch same) level)
      · rw [Nat.add_zero] at deeper
        rw [deeper.eq_indented_iff, Nat.mul_eq_zero, Nat.mul_eq_zero]
        simp

/-- A call in a block, with a block of its own. -/
def blockInBlock : Node :=
  .block [.call "f" [] (.block [.call "g" [] .absent {}] {}) {}] {}

theorem layout_at_level_iff_blocks :
    (∀ name ∈ blockInBlock.names, Unbroken name) ∧
      shown {} standardRoom 2 1 (.tree blockInBlock) =
        (shown {} standardRoom 2 0 (.tree blockInBlock)).map (indented 2) ∧
      ∃ own top, shown {} standardRoom 2 3 (.tree (.call "g" [] .absent {})) = .ok own ∧
        ("\n" ++ indentation 2 3 ++ own ++ "\n").toList <:+:
          (nodeText 2 1 blockInBlock).toList ∧ own = indented 6 top := by
  have unbroken : ∀ name ∈ blockInBlock.names, Unbroken name := by decide
  obtain ⟨whole, lines, -⟩ := layout_at_level_iff {} standardRoom 2 1 blockInBlock unbroken
  have inner : (Node.block [.call "g" [] .absent {}] {}).StandsIn 1 blockInBlock :=
    .block (List.mem_singleton.mpr rfl) (.yielded .here)
  obtain ⟨own, top, laid, -, line, same⟩ :=
    lines _ rfl 1 _ _ inner _ (List.mem_singleton.mpr rfl)
  exact ⟨unbroken, whole.mpr (.inr (.inr rfl)), own, top, laid, line, same.mpr (.inr rfl)⟩

/-- A program in a block indents its first line, which the block has indented. -/
theorem program_in_block_indented_twice :
    let program : Node := .program [.call "f" [] .absent {}] {}
    (∀ name ∈ (Node.block [program] {}).names, Unbroken name) ∧
      shown {} standardRoom 2 0 (.tree (.block [program] {})) = .ok "\x7b\n    f()\n\x7d" ∧
      shown {} standardRoom 2 1 (.tree program) = .ok "  f()" ∧
      (shown {} standardRoom 2 0 (.tree program)).map (indented 2) = .ok "f()" := by
  exact ⟨by decide, rfl, rfl, rfl⟩

end Layout

end TreeScript
