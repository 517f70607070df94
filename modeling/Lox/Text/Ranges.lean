/-!
Sets of characters as closed ranges of code points, the shape in which a property of characters is
tabulated.
-/

namespace Lox.Text

def inRanges (ranges : List (Nat × Nat)) (char : Char) : Bool :=
  ranges.any fun (first, last) => first ≤ char.toNat && char.toNat ≤ last

end Lox.Text
