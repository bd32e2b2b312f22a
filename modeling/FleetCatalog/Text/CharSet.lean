/-!
# Sets of characters

A set of characters as ascending ranges of code points, for the properties that the character
standard tabulates.
-/
namespace FleetCatalog.Text

/-- Ranges of code points, both ends included, in ascending order. -/
abbrev CharSet := List (Nat × Nat)

/-- Whether a code point lies in one of the ranges. Ranges that start above it are not looked at. -/
def CharSet.has : CharSet → Nat → Bool
  | [], _ => false
  | r :: rs, n => if n < r.1 then false else if n ≤ r.2 then true else CharSet.has rs n

end FleetCatalog.Text
