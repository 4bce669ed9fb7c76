/-!
# Ranges of code points

A character class is a list of closed ranges of code points, ascending and apart. A list is small
enough to be read, and membership is one pass over it.
-/

namespace TreeScript.Text

/-- Closed ranges of code points, given by their ends. -/
abbrev Ranges := List (Nat × Nat)

def Ranges.contains (ranges : Ranges) (c : Char) : Bool :=
  ranges.any fun range => range.1 ≤ c.toNat && c.toNat ≤ range.2

end TreeScript.Text
