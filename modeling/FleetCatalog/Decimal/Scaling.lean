import FleetCatalog.Decimal.Double
/-!
# Scaling by powers of ten

A decimal read in steps: its digits give a number, and that is multiplied or divided by powers of
ten. Digits, power and result are each rounded to nearest, so that in the last place the outcome
can differ from the number nearest to the decimal itself, which `ofDecimal` gives.
-/
namespace FleetCatalog.Double

/-- The magnitude of a finite number as a quotient of naturals. -/
def quotient (x : Double) : Nat × Nat :=
  let (m, e) := parts x.magnitude
  (m * Nat.pow 2 e.toNat, Nat.pow 2 (-e).toNat)

/-- The product of two finite numbers. -/
def times (x y : Double) : Double :=
  let (a, b) := x.quotient
  let (c, d) := y.quotient
  nearest (x.negative != y.negative) (a * c) (b * d)

/-- The quotient of two finite numbers, the second one not zero. -/
def dividedBy (x y : Double) : Double :=
  let (a, b) := x.quotient
  let (c, d) := y.quotient
  nearest (x.negative != y.negative) (a * d) (b * c)

/-- The greatest exponent of a power of ten below infinity. -/
def greatestPower : Nat := 308

/-- The number nearest to a power of ten. -/
def powerOfTen (k : Nat) : Double := nearest false (Nat.pow 10 k) 1

/-- A finite number times `10 ^ k`; infinity also where that power itself is infinite. -/
def scaledUp (x : Double) (k : Nat) : Double :=
  if x.magnitude = 0 then x
  else if k ≤ greatestPower then x.times (powerOfTen k)
  else infinity x.negative

/-- A finite number divided by `10 ^ k`, by the greatest power as long as `k` exceeds it. -/
def scaledDown (x : Double) (k : Nat) : Double :=
  if k ≤ greatestPower then x.dividedBy (powerOfTen k)
  else if x.magnitude = 0 then x
  else scaledDown (x.dividedBy (powerOfTen greatestPower)) (k - greatestPower)
termination_by k
decreasing_by simp only [greatestPower] at *; omega

/-- `digits * 10 ^ exponent`, rounded at each step. -/
def ofScaled (negative : Bool) (digits : Nat) (exponent : Int) : Double :=
  let x := nearest negative digits 1
  match exponent with
  | .ofNat k => x.scaledUp k
  | .negSucc k => x.scaledDown (k + 1)

end FleetCatalog.Double
