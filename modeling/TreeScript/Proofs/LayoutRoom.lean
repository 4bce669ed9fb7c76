import TreeScript.Layout

/-!
# Room for a layout

What is laid out of a tree needs no more room than the whole tree, and more room does no harm. For
each tree there is room enough, and then only an integer can stand in the way.
-/

namespace TreeScript.Layout

theorem inside_mono {calls room room' : Nat} {obstacle? : Nat → Option Obstacle}
    (grows : ∀ {i j}, i ≤ j → obstacle? i = none → obstacle? j = none) (le : room ≤ room')
    (clear : inside calls room obstacle? = none) : inside calls room' obstacle? = none := by
  obtain ⟨enough, clear⟩ := inside_eq_none_iff.mp clear
  exact inside_eq_none_iff.mpr ⟨by omega, grows (by omega) clear⟩

mutual

/-- More room does no harm. -/
theorem nodeObstacle?_mono {room room' : Nat} (le : room ≤ room') (node : Node)
    (clear : nodeObstacle? room node = none) : nodeObstacle? room' node = none := by
  match node with
  | .list _ items => exact inside_mono (nodesObstacle?_mono · items) le clear
  | .call name parameters yielded origin =>
      have arguments := fun {i j} (le : i ≤ j) => nodesObstacle?_mono le parameters
      by_cases none : yielded = .absent
      · subst none
        simp only [nodeObstacle?, Option.or_none] at clear ⊢
        exact inside_mono arguments le clear
      · rw [nodeObstacle?_call _ _ _ _ none, Option.or_eq_none_iff] at clear ⊢
        exact ⟨inside_mono arguments le clear.1,
          inside_mono (nodeObstacle?_mono · yielded) le clear.2⟩
  | .block [] _ => exact inside_mono (fun _ _ => rfl) le clear
  | .block (first :: rest) origin =>
      rw [nodeObstacle?_block _ _ (by simp)] at clear ⊢
      exact inside_mono (nodesObstacle?_mono · (first :: rest)) le clear
  | .program body _ | .group body _ => exact inside_mono (nodesObstacle?_mono · body) le clear
  | .number .. => exact inside_mono (fun _ clear => clear) le clear
  | .absent | .text .. | .boolean .. | .memory .. | .moduleImport .. =>
      exact inside_mono (fun _ _ => rfl) le clear

theorem nodesObstacle?_mono {room room' : Nat} (le : room ≤ room') (nodes : List Node)
    (clear : nodesObstacle? room nodes = none) : nodesObstacle? room' nodes = none := by
  match nodes with
  | [] => rfl
  | node :: rest =>
      obtain ⟨first, others⟩ := Option.or_eq_none_iff.mp clear
      exact Option.or_eq_none_iff.mpr
        ⟨nodeObstacle?_mono le node first, nodesObstacle?_mono le rest others⟩

end

/-! ### Parts of a tree -/

variable {room : Nat} {name : String} {node yielded : Node} {parameters body : List Node}
variable {origin : Origin}

/-- What is laid out inside of a tree can be laid out by itself. -/
theorem parts_clear {calls : Nat} {nodes : List Node}
    (clear : (inside calls room fun room => nodesObstacle? room nodes) = none)
    (mem : node ∈ nodes) : nodeObstacle? room node = none := by
  obtain ⟨-, clear⟩ := inside_eq_none_iff.mp clear
  exact nodeObstacle?_mono (Nat.sub_le ..) node ((nodesObstacle?_eq_none_iff ..).mp clear node mem)

theorem statement_clear (clear : nodeObstacle? room (.block body origin) = none)
    (mem : node ∈ body) : nodeObstacle? room node = none := by
  rw [nodeObstacle?_block _ _ (List.ne_nil_of_mem mem)] at clear
  exact parts_clear clear mem

/-- A call can be laid out just if it can be laid out without its yield subtree, and this too. -/
theorem call_clear (clear : nodeObstacle? room (.call name parameters yielded origin) = none) :
    nodeObstacle? room (.call name parameters .absent origin) = none ∧
      nodeObstacle? room yielded = none := by
  by_cases none : yielded = .absent
  · subst none
    refine ⟨clear, ?_⟩
    -- The parentheses take more room than a missing tree.
    simp only [nodeObstacle?, Option.or_none] at clear
    obtain ⟨enough, -⟩ := inside_eq_none_iff.mp clear
    exact inside_eq_none_iff.mpr ⟨by omega, rfl⟩
  · rw [nodeObstacle?_call _ _ _ _ none, Option.or_eq_none_iff] at clear
    obtain ⟨-, under⟩ := inside_eq_none_iff.mp clear.2
    exact ⟨by simp only [nodeObstacle?, clear.1, Option.or_none],
      nodeObstacle?_mono (Nat.sub_le ..) yielded under⟩

theorem argument_clear (clear : nodeObstacle? room (.call name parameters yielded origin) = none)
    (mem : node ∈ parameters) : nodeObstacle? room node = none := by
  have alone := (call_clear clear).1
  simp only [nodeObstacle?, Option.or_none] at alone
  exact parts_clear alone mem

/-! ### Enough room -/

/-- With enough room the nesting does not stand in the way. -/
def Shallow (obstacle? : Nat → Option Obstacle) : Prop :=
  ∃ enough, ∀ room, enough ≤ room → obstacle? room ≠ some .tooDeep

variable {first rest : Nat → Option Obstacle}

theorem shallow_digitObstacle? (writable : Bool) : Shallow fun _ => digitObstacle? writable :=
  ⟨0, by cases writable <;> simp [digitObstacle?]⟩

theorem shallow_none : Shallow fun _ => none := ⟨0, by simp⟩

theorem Shallow.inside (shallow : Shallow first) (calls : Nat) :
    Shallow fun room => inside calls room first := by
  obtain ⟨enough, under⟩ := shallow
  refine ⟨enough + calls, fun room le => ?_⟩
  simp only [Layout.inside, if_neg (Nat.not_lt.mpr (Nat.le_of_add_left_le le))]
  exact under _ (by omega)

theorem Shallow.or (shallow : Shallow first) (others : Shallow rest) :
    Shallow fun room => (first room).or (rest room) := by
  obtain ⟨enough, under⟩ := shallow
  obtain ⟨enough', under'⟩ := others
  refine ⟨max enough enough', fun room le => ?_⟩
  rw [Ne, Option.or_eq_some_iff]
  rintro (deep | ⟨-, deep⟩)
  · exact under room (by omega) deep
  · exact under' room (by omega) deep

mutual

/-- For each tree there is room enough. -/
theorem shallow_nodeObstacle? (node : Node) : Shallow (nodeObstacle? · node) := by
  match node with
  | .list _ items => exact (shallow_nodesObstacle? items).inside 3
  | .call name parameters yielded origin =>
      have arguments := (shallow_nodesObstacle? parameters).inside 3
      by_cases none : yielded = .absent
      · subst none
        exact arguments.or shallow_none
      · simp only [nodeObstacle?_call _ _ _ _ none]
        exact arguments.or ((shallow_nodeObstacle? yielded).inside 2)
  | .block [] _ => exact shallow_none.inside 2
  | .block (first :: rest) origin =>
      simp only [nodeObstacle?_block _ origin (List.cons_ne_nil first rest)]
      exact (shallow_nodesObstacle? (first :: rest)).inside 4
  | .program body _ => exact (shallow_nodesObstacle? body).inside 4
  | .group body _ => exact (shallow_nodesObstacle? body).inside 3
  | .number n _ => exact (shallow_digitObstacle? n.writable).inside 4
  | .absent | .text .. | .boolean .. | .memory .. | .moduleImport .. => exact shallow_none.inside 2

theorem shallow_nodesObstacle? (nodes : List Node) : Shallow (nodesObstacle? · nodes) := by
  match nodes with
  | [] => exact shallow_none
  | node :: rest => exact (shallow_nodeObstacle? node).or (shallow_nodesObstacle? rest)

end

end TreeScript.Layout
