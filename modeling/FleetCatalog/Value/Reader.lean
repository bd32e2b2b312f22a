import FleetCatalog.Decimal.Scaling
import FleetCatalog.Value
/-!
# Reading a value from its text

Blanks between the tokens are free. A numeral without point and exponent is an integer if it is
in range and not a negative zero; any other numeral is a floating-point number, and is refused if
that is infinite. Of a long numeral the leading digits count that fit in 64 bits. A repeated key
keeps its first place and its last value.
-/
namespace FleetCatalog.Value.Reader

def isBlank (c : Char) : Bool := c = ' ' || c = '\t' || c = '\n' || c = '\r'

def skipBlanks (cs : List Char) : List Char := cs.dropWhile isBlank

def hexValue (c : Char) : Option Nat :=
  if '0' ≤ c ∧ c ≤ '9' then some (c.toNat - 48)
  else if 'a' ≤ c ∧ c ≤ 'f' then some (c.toNat - 87)
  else if 'A' ≤ c ∧ c ≤ 'F' then some (c.toNat - 55)
  else none

/-- Four hexadecimal digits. -/
def hexFour : List Char → Option (Nat × List Char)
  | a :: b :: c :: d :: r => do
    let w ← hexValue a
    let x ← hexValue b
    let y ← hexValue c
    let z ← hexValue d
    return (((w * 16 + x) * 16 + y) * 16 + z, r)
  | _ => none

/-- The character of a `\u` escape; one outside the basic plane is a pair of escapes. -/
def unicodeEscape (cs : List Char) : Option (Char × List Char) := do
  let (high, r) ← hexFour cs
  if 0xd800 ≤ high ∧ high < 0xdc00 then
    match r with
    | '\\' :: 'u' :: r' =>
      let (low, r'') ← hexFour r'
      if 0xdc00 ≤ low ∧ low < 0xe000 then
        return (Char.ofNat (0x10000 + (high - 0xd800) * 0x400 + (low - 0xdc00)), r'')
      else none
    | _ => none
  else if 0xdc00 ≤ high ∧ high < 0xe000 then none
  else return (Char.ofNat high, r)

/-- One character of a string, escaped or plain. -/
def stringChar : List Char → Option (Char × List Char)
  | '\\' :: c :: r =>
    match c with
    | '"' => some ('"', r)
    | '\\' => some ('\\', r)
    | '/' => some ('/', r)
    | 'b' => some ('\x08', r)
    | 'f' => some ('\x0c', r)
    | 'n' => some ('\n', r)
    | 'r' => some ('\r', r)
    | 't' => some ('\t', r)
    | 'u' => unicodeEscape r
    | _ => none
  | c :: r => if c.toNat < 32 ∨ c = '\\' then none else some (c, r)
  | [] => none

/-- The characters up to the closing quotation mark, gathered onto `read`. -/
def stringBody : Nat → List Char → List Char → Option (String × List Char)
  | 0, _, _ => none
  | _ + 1, read, '"' :: r => some (String.ofList read.reverse, r)
  | n + 1, read, cs => do
    let (c, r) ← stringChar cs
    stringBody n (c :: read) r

def isDigit (c : Char) : Bool := decide ('0' ≤ c ∧ c ≤ '9')

/-- The natural that digits denote. -/
def digitsValue (cs : List Char) : Nat := cs.foldl (fun n c => 10 * n + (c.toNat - 48)) 0

/-- A nonempty run of digits. -/
def digits (cs : List Char) : Option (List Char × List Char) :=
  match cs.takeWhile isDigit with
  | [] => none
  | ds => some (ds, cs.dropWhile isDigit)

/-- The digits of an integer part: one zero, or digits that do not begin with zero. -/
def wholeDigits : List Char → Option (List Char × List Char)
  | '0' :: r => some (['0'], r)
  | cs => digits cs

/-- Digits after a point, if there is one. -/
def fraction : List Char → Option (Option (List Char) × List Char)
  | '.' :: r => do
    let (ds, r') ← digits r
    return (some ds, r')
  | cs => some (none, cs)

/-- A power of ten, if there is one. -/
def exponent : List Char → Option (Option Int × List Char)
  | c :: r =>
    if c = 'e' ∨ c = 'E' then
      match r with
      | '-' :: r' => do
        let (ds, r'') ← digits r'
        return (some (-(digitsValue ds : Int)), r'')
      | '+' :: r' => do
        let (ds, r'') ← digits r'
        return (some (digitsValue ds : Int), r'')
      | r' => do
        let (ds, r'') ← digits r'
        return (some (digitsValue ds : Int), r'')
    else some (none, c :: r)
  | [] => some (none, [])

/-- Writes digits behind a natural as long as it stays below `2 ^ 64`. Gives the natural and the
digits that are left. -/
def gather (n : Nat) : List Char → Nat × List Char
  | [] => (n, [])
  | c :: r =>
    let next := 10 * n + (c.toNat - 48)
    if next < Text.unsignedBound then gather next r else (n, c :: r)

/-- The floating-point number of a numeral. Digits that do not fit count by their number alone: in
front of the point each stands for a factor of ten. -/
def floating (negative : Bool) (whole frac : List Char) (power : Int) : Double :=
  let (n, dropped) := gather 0 whole
  let (n, unread) := gather n frac
  Double.ofScaled negative n (power + dropped.length - (frac.length - unread.length : Nat))

/-- The number of a numeral; none if it is beyond the floating-point range. -/
def number (negative : Bool) (whole : List Char) (frac : Option (List Char)) (power : Option Int) :
    Option Number :=
  let n := digitsValue whole
  let signed : Int := if negative then -(n : Int) else n
  if frac.isNone ∧ power.isNone ∧ Number.InRange signed ∧ ¬ (negative ∧ n = 0) then
    some (.int signed)
  else
    let x := floating negative whole (frac.getD []) (power.getD 0)
    if x.isFinite then some (.float x) else none

def numeral (cs : List Char) : Option (Number × List Char) := do
  let (negative, r) := match cs with
    | '-' :: r => (true, r)
    | _ => (false, cs)
  let (whole, r) ← wholeDigits r
  let (frac, r) ← fraction r
  let (power, r) ← exponent r
  let n ← number negative whole frac power
  return (n, r)

mutual
/-- A value and the rest of the text. -/
def value : Nat → List Char → Option (Value × List Char)
  | 0, _ => none
  | n + 1, cs =>
    match skipBlanks cs with
    | 'n' :: 'u' :: 'l' :: 'l' :: r => some (.null, r)
    | 't' :: 'r' :: 'u' :: 'e' :: r => some (.bool true, r)
    | 'f' :: 'a' :: 'l' :: 's' :: 'e' :: r => some (.bool false, r)
    | '"' :: r => (stringBody (r.length + 1) [] r).map fun (s, r) => (.string s, r)
    | '[' :: r =>
      match skipBlanks r with
      | ']' :: r => some (.sequence [], r)
      | r => (items n [] r).map fun (vs, r) => (.sequence vs, r)
    | '{' :: r =>
      match skipBlanks r with
      | '}' :: r => some (.mapping [], r)
      | r => (members n [] r).map fun (fs, r) => (.mapping fs, r)
    | r => (numeral r).map fun (x, r) => (.number x, r)

/-- Items up to the closing bracket, gathered onto `read`. -/
def items : Nat → List Value → List Char → Option (List Value × List Char)
  | 0, _, _ => none
  | n + 1, read, cs =>
    match value n cs with
    | none => none
    | some (v, r) =>
      match skipBlanks r with
      | ',' :: r => items n (v :: read) r
      | ']' :: r => some ((v :: read).reverse, r)
      | _ => none

/-- Entries up to the closing brace, added to `read`. -/
def members : Nat → Mapping → List Char → Option (Mapping × List Char)
  | 0, _, _ => none
  | n + 1, read, cs =>
    match skipBlanks cs with
    | '"' :: r =>
      match stringBody (r.length + 1) [] r with
      | none => none
      | some (k, r) =>
        match skipBlanks r with
        | ':' :: r =>
          match value n r with
          | none => none
          | some (v, r) =>
            match skipBlanks r with
            | ',' :: r => members n (Fields.put k v read) r
            | '}' :: r => some (Fields.put k v read, r)
            | _ => none
        | _ => none
    | _ => none
end

end Reader

/-- The value that a whole text denotes. -/
def read? (s : String) : Option Value :=
  let cs := s.toList
  match Reader.value (cs.length + 1) cs with
  | some (v, r) => if (Reader.skipBlanks r).isEmpty then some v else none
  | none => none

end FleetCatalog.Value
