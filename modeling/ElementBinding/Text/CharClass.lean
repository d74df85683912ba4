/-!
# Character classes

A class of characters is an ascending list of inclusive ranges of code points.
-/
namespace ElementBinding.Text

/-- A class of characters, given by inclusive ranges of code points in ascending order. -/
structure CharClass where
  ranges : List (Nat × Nat)

namespace CharClass

def contains (cls : CharClass) (c : Char) : Bool :=
  cls.ranges.any fun range => range.1 ≤ c.toNat && c.toNat ≤ range.2

end CharClass

end ElementBinding.Text
