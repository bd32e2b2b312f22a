import FleetCatalog.Decimal.Double
/-!
# Shortest digits

The fewest significant decimal digits that read back as a given number. The reals that round to
the number form an interval, whose ends belong to it iff the mantissa is even. Grids of one, two,
up to seventeen digits are tried in turn; on each only the two neighbours of the number matter.
The arithmetic is exact.
-/
namespace FleetCatalog.Double

/-- Where a number lies midway between two candidates, which one is taken. -/
inductive Tie
  | toEven
  | up
  deriving DecidableEq

/-- Significant digits `d.ddd`, leading one nonzero, with the power of ten of the leading digit. -/
structure Digits where
  digits : List Nat
  exponent : Int
  deriving DecidableEq

/-- The decimal digits of a natural, most significant first; none for zero. -/
def decimalDigits (n : Nat) : List Nat :=
  if n = 0 then [] else decimalDigits (n / 10) ++ [n % 10]
termination_by n
decreasing_by omega

/-- `10 ^ k ≤ num / den`. -/
def reaches (num den : Nat) : Int → Bool
  | .ofNat k => decide (den * Nat.pow 10 k ≤ num)
  | .negSucc k => decide (den ≤ num * Nat.pow 10 (k + 1))

/-- The power of ten of the leading digit of `num / den`. The binary logarithm gives a lower
estimate that is short by two at most. -/
def leadingExponent (num den : Nat) : Int :=
  let below := (((num.log2 : Int) - den.log2 - 1) * 30103).fdiv 100000 - 1
  if reaches num den (below + 3) then below + 3
  else if reaches num den (below + 2) then below + 2
  else if reaches num den (below + 1) then below + 1
  else below

/-- The reals that round to a number, over the common denominator `den`. -/
structure Interval where
  low : Nat
  value : Nat
  high : Nat
  den : Nat
  closed : Bool

/-- The interval of a nonzero finite magnitude. Below a power of two the grid of numbers is finer,
so there the lower end is nearer. -/
def interval (pattern : Nat) : Interval :=
  let (m, e) := parts pattern
  let below := if pattern % mantissas = 0 ∧ 2 ≤ pattern / mantissas then 1 else 2
  let e' := e - 2
  let scale := Nat.pow 2 e'.toNat
  { low := (4 * m - below) * scale, value := 4 * m * scale, high := (4 * m + 2) * scale
    den := Nat.pow 2 (-e').toNat, closed := decide (m % 2 = 0) }

/-- Whether `q * 10 ^ j` lies in the interval. -/
def Interval.contains (i : Interval) (j : Int) (q : Nat) : Bool :=
  let x := q * Nat.pow 10 j.toNat * i.den
  let s := Nat.pow 10 (-j).toNat
  if i.closed then decide (i.low * s ≤ x ∧ x ≤ i.high * s)
  else decide (i.low * s < x ∧ x < i.high * s)

/-- The point nearest to the value among the interval's two candidates on the grid of step
`10 ^ j`, if one of them lies inside. -/
def Interval.onGrid (i : Interval) (tie : Tie) (j : Int) : Option Nat :=
  let num := i.value * Nat.pow 10 (-j).toNat
  let den := i.den * Nat.pow 10 j.toNat
  let q := num / den
  let r := num % den
  let lower := i.contains j q && decide (q ≠ 0)
  let upper := i.contains j (q + 1)
  if lower && upper then
    if 2 * r < den then some q
    else if den < 2 * r then some (q + 1)
    else match tie with
      | .up => some (q + 1)
      | .toEven => if q % 2 = 0 then some q else some (q + 1)
  else if lower then some q
  else if upper then some (q + 1)
  else none

/-- The first grid, from one digit to seventeen, that has a point in the interval. -/
def Interval.search (i : Interval) (tie : Tie) (k : Int) : Nat → Option (Nat × Int)
  | 0 => none
  | n + 1 =>
    let j := k - (16 - n : Nat)
    match i.onGrid tie j with
    | some q => some (q, j)
    | none => i.search tie k n

/-- The shortest digits of a nonzero finite number, without trailing zeros. -/
def shortest (tie : Tie) (x : Double) : Digits :=
  let i := interval x.magnitude
  let k := leadingExponent i.value i.den
  let (q, j) := (i.search tie k 17).getD (0, 0)
  let ds := decimalDigits q
  { digits := (ds.reverse.dropWhile (· == 0)).reverse
    exponent := j + ds.length - 1 }

end FleetCatalog.Double
