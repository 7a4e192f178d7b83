/-!
# Ranges of code points

A character class given as a list of closed ranges of code points, in increasing order.
-/
namespace ProseLint.Unicode

/-- A closed range of code points, written `(first, last)`. -/
abbrev Range := Nat × Nat

/-- Whether one of the ranges holds the character. -/
def within (ranges : List Range) (c : Char) : Bool :=
  ranges.any fun r => r.1 ≤ c.toNat && c.toNat ≤ r.2

end ProseLint.Unicode
