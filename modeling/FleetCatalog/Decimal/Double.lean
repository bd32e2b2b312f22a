/-!
# Binary floating point

Numbers of the 64-bit binary format, held by their bit pattern: one sign bit, eleven exponent
bits, fifty-two mantissa bits. A quotient of naturals is rounded to the nearest such number, a
tie going to the even mantissa, in exact arithmetic.
-/
namespace FleetCatalog

/-- A number of the 64-bit binary format, by its bits. -/
structure Double where
  bits : UInt64
  deriving DecidableEq, Inhabited

namespace Double

/-- The number of mantissas that share an exponent: fifty-two bits of them. -/
def mantissas : Nat := 0x10000000000000

/-- The bits of positive infinity; every finite magnitude has a smaller pattern. -/
def infinityBits : Nat := 0x7ff0000000000000

/-- The bit that marks a negative number. -/
def signBit : Nat := 0x8000000000000000

/-- The pattern without its sign. -/
def magnitude (x : Double) : Nat := x.bits.toNat % signBit

/-- Whether the sign bit is set. -/
def negative (x : Double) : Bool := decide (signBit ≤ x.bits.toNat)

def isFinite (x : Double) : Bool := decide (x.magnitude < infinityBits)

def isInfinite (x : Double) : Bool := decide (x.magnitude = infinityBits)

/-- The number with the given sign and magnitude pattern. -/
def ofMagnitude (negative : Bool) (m : Nat) : Double :=
  ⟨UInt64.ofNat (if negative then signBit + m else m)⟩

def zero : Double := ofMagnitude false 0

def infinity (negative : Bool) : Double := ofMagnitude negative infinityBits

def notANumber (negative : Bool) : Double := ofMagnitude negative (infinityBits + mantissas / 2)

/-- The two zeros are one number. -/
def canonical (x : Double) : Double := if x.magnitude = 0 then zero else x

/-- Equality of numbers: of the bits, except that the two zeros are equal. -/
def Same (x y : Double) : Prop := x.canonical = y.canonical

instance (x y : Double) : Decidable (Same x y) := inferInstanceAs (Decidable (_ = _))

theorem Same.refl (x : Double) : Same x x := rfl

/-- A finite magnitude pattern as a mantissa `m` and an exponent `e`: it stands for `m * 2 ^ e`. -/
def parts (pattern : Nat) : Nat × Int :=
  let field : Nat := pattern / mantissas
  let fraction : Nat := pattern % mantissas
  if field = 0 then (fraction, -1074) else (mantissas + fraction, (field : Int) - 1075)

/-- The natural nearest to `num / den`, a tie going to the even one. -/
def roundQuotient (num den : Nat) : Nat :=
  let q := num / den
  let r := num % den
  if 2 * r < den then q
  else if den < 2 * r then q + 1
  else if q % 2 = 0 then q else q + 1

/-- `num / den / 2 ^ e` as a quotient of naturals. -/
def scaled (num den : Nat) (e : Int) : Nat × Nat :=
  match e with
  | .ofNat k => (num, den * Nat.pow 2 k)
  | .negSucc k => (num * Nat.pow 2 (k + 1), den)

/-- The exponent at which the quotient has fifty-three mantissa bits, or the least exponent. -/
def exponentOf (num den : Nat) : Int :=
  let guess : Int := max (-1074) ((num.log2 : Int) - den.log2 - 52)
  let (n, d) := scaled num den guess
  if n / d < mantissas then max (-1074) (guess - 1) else guess

/-- The pattern of the magnitude nearest to `num / den`; infinity when none is that large. -/
def nearestPattern (num den : Nat) : Nat :=
  if num = 0 then 0
  else
    let e := exponentOf num den
    let (n, d) := scaled num den e
    min infinityBits ((e + 1074).toNat * mantissas + roundQuotient n d)

/-- The number nearest to `num / den` with the given sign. -/
def nearest (negative : Bool) (num den : Nat) : Double :=
  ofMagnitude negative (nearestPattern num den)

/-- The number nearest to an integer. -/
def ofInt (n : Int) : Double := nearest (decide (n < 0)) n.natAbs 1

/-- The number nearest to `digits * 10 ^ exponent`. Exponents far outside the format's range are
decided without computing the power. -/
def ofDecimal (negative : Bool) (digits : Nat) (exponent : Int) : Double :=
  if digits = 0 then ofMagnitude negative 0
  else if 310 < exponent then infinity negative
  else if exponent < -(400 + (digits.log2 : Int)) then ofMagnitude negative 0
  else
    match exponent with
    | .ofNat k => nearest negative (digits * Nat.pow 10 k) 1
    | .negSucc k => nearest negative digits (Nat.pow 10 (k + 1))

end Double
end FleetCatalog
