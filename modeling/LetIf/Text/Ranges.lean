/-!
# Sets of characters as ranges

A character property is given by closed ranges of code points.
-/

namespace LetIf.Text

/-- Closed ranges of code points. -/
abbrev Ranges := List (Nat × Nat)

def Ranges.contains (ranges : Ranges) (c : Char) : Bool :=
  ranges.any fun (first, last) => first ≤ c.toNat && c.toNat ≤ last

end LetIf.Text
