import FleetCatalog.Decimal.Layout
import FleetCatalog.Text.Numeral
/-!
# Numbers of a value

An integer and a floating-point number are different numbers even where they denote the same
quantity: `1` is not `1.0`. Read as floating point both kinds can be compared by quantity.
-/
namespace FleetCatalog

/-- A number as it was written: an integer from `-2 ^ 63` to below `2 ^ 64`, or floating point. -/
inductive Number
  | int (n : Int)
  | float (x : Double)
  deriving DecidableEq, Inhabited

namespace Number

/-- Whether an integer is written as one; others are written as floating point. -/
def InRange (n : Int) : Prop := -Text.signedBound ≤ n ∧ n < Text.unsignedBound

instance (n : Int) : Decidable (InRange n) := inferInstanceAs (Decidable (_ ∧ _))

/-- The two floating-point zeros are one number. -/
def canonical : Number → Number
  | int n => int n
  | float x => float x.canonical

/-- The nearest floating-point number. -/
def toDouble : Number → Double
  | int n => Double.ofInt n
  | float x => x

/-- The compact text of a number. -/
def text : Number → List Char
  | int n => Double.integerText n
  | float x => Double.text .compact x

end Number
end FleetCatalog
