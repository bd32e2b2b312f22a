import FleetCatalog.Decimal.Shortest
/-!
# How a number is written

The shortest digits laid out positionally or with a power of ten. A layout says for which
leading exponents the positional form is used; that form always has a fractional part.
-/
namespace FleetCatalog.Double

/-- The choices of a written form. -/
structure Layout where
  /-- Whether a number with this leading exponent is written positionally. -/
  positional : Int → Bool
  tie : Tie

/-- Compact data text: positional from `10 ^ -5` up to below `10 ^ 16`, otherwise a power of ten
with its sign. -/
def Layout.compact : Layout := ⟨fun k => decide (-5 ≤ k ∧ k < 16), .toEven⟩

/-- Plain text: positional at every size. -/
def Layout.plain : Layout := ⟨fun _ => true, .up⟩

def digitChar (d : Nat) : Char := Char.ofNat (48 + d)

/-- A natural in decimal. -/
def naturalText (n : Nat) : List Char :=
  if n = 0 then ['0'] else (decimalDigits n).map digitChar

/-- An integer in decimal, with a sign only below zero. -/
def integerText (n : Int) : List Char :=
  if n < 0 then '-' :: naturalText n.natAbs else naturalText n.natAbs

/-- Digits around a decimal point, with at least one digit on each side. -/
def Digits.positional (d : Digits) : List Char :=
  let cs := d.digits.map digitChar
  match d.exponent with
  | .ofNat k =>
    let whole := cs.take (k + 1)
    let rest := cs.drop (k + 1)
    let rest := if rest.isEmpty then ['0'] else rest
    whole ++ List.replicate (k + 1 - whole.length) '0' ++ '.' :: rest
  | .negSucc k => '0' :: '.' :: (List.replicate k '0' ++ cs)

/-- One digit, the others after a point if there are any, and the signed power of ten. -/
def Digits.scientific (d : Digits) : List Char :=
  let cs := d.digits.map digitChar
  let rest := cs.drop 1
  cs.take 1 ++ (if rest.isEmpty then [] else '.' :: rest) ++ 'e' ::
    (if d.exponent < 0 then integerText d.exponent else '+' :: integerText d.exponent)

/-- The text of a number in a layout. -/
def text (layout : Layout) (x : Double) : List Char :=
  let sign := if x.negative then ['-'] else []
  if x.isInfinite then sign ++ "inf".toList
  else if !x.isFinite then "NaN".toList
  else if x.magnitude = 0 then sign ++ "0.0".toList
  else
    let d := shortest layout.tie x
    sign ++ if layout.positional d.exponent then d.positional else d.scientific

end FleetCatalog.Double
