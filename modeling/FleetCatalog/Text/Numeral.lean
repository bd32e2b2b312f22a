/-!
# Numerals in text

Which texts stand for a number or a truth value. Signs are optional as each reader says; blanks
are never allowed.
-/
namespace FleetCatalog.Text

/-- One more than the largest natural of sixty-four bits. -/
def unsignedBound : Nat := 0x10000000000000000

/-- One more than the largest signed integer of sixty-four bits. -/
def signedBound : Int := 0x8000000000000000

def isDigit (c : Char) : Bool := decide ('0' ≤ c ∧ c ≤ '9')

/-- The natural that a nonempty run of digits denotes. -/
def natural? (cs : List Char) : Option Nat :=
  if cs ≠ [] ∧ cs.all isDigit then some (cs.foldl (fun n c => 10 * n + (c.toNat - 48)) 0) else none

/-- A natural of sixty-four bits, after at most one plus sign. -/
def unsigned? (cs : List Char) : Option Nat :=
  let digits := match cs with
    | '+' :: r => r
    | _ => cs
  match natural? digits with
  | some n => if n < unsignedBound then some n else none
  | none => none

/-- A signed integer of sixty-four bits, after at most one sign. -/
def signed? (cs : List Char) : Option Int :=
  let (negative, digits) := match cs with
    | '-' :: r => (true, r)
    | '+' :: r => (false, r)
    | _ => (false, cs)
  match natural? digits with
  | some n =>
    let i : Int := if negative then -(n : Int) else n
    if -signedBound ≤ i ∧ i < signedBound then some i else none
  | none => none

/-- The words for a truth value. -/
def bool? (cs : List Char) : Option Bool :=
  if cs = ['t', 'r', 'u', 'e'] then some true
  else if cs = ['f', 'a', 'l', 's', 'e'] then some false
  else none

/-- The words for the infinities and for no number, in any mixture of case. -/
def isSpecial (cs : List Char) : Bool :=
  let word := cs.map Char.toLower
  word == "inf".toList || word == "infinity".toList || word == "nan".toList

/-- A nonempty run of digits after at most one sign. -/
def isPower (cs : List Char) : Bool :=
  let digits := match cs with
    | '-' :: r => r
    | '+' :: r => r
    | _ => cs
  (natural? digits).isSome

/-- Digits with at most one point, at least one digit on one side of it, then at most one power. -/
def isDecimal (cs : List Char) : Bool :=
  let whole := cs.takeWhile isDigit
  let rest := cs.dropWhile isDigit
  let (frac, rest) := match rest with
    | '.' :: r => (r.takeWhile isDigit, r.dropWhile isDigit)
    | _ => ([], rest)
  (!whole.isEmpty || !frac.isEmpty) &&
    match rest with
    | [] => true
    | c :: r => (c == 'e' || c == 'E') && isPower r

/-- Whether a text stands for a floating-point number, after at most one sign. -/
def isFloat (cs : List Char) : Bool :=
  let body := match cs with
    | '-' :: r => r
    | '+' :: r => r
    | _ => cs
  isSpecial body || isDecimal body

end FleetCatalog.Text
