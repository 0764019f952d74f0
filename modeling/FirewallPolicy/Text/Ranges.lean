/-!
## Character ranges

Sets of characters given as lists of code point ranges, both ends included.
-/

namespace FirewallPolicy.Text

/-- A set of characters as a list of code point ranges, both ends included. -/
abbrev Ranges := List (Nat × Nat)

/-- Is the character in one of the ranges? -/
def Ranges.contains (ranges : Ranges) (c : Char) : Bool :=
  ranges.any fun range => range.1 ≤ c.toNat && c.toNat ≤ range.2

end FirewallPolicy.Text
