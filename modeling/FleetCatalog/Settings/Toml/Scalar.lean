import FleetCatalog.Settings.Setting
/-!
# Scalars of the settings format

Strings, numbers and truth values as they are written in a settings file. A reader takes the
value at the front of the text and gives the rest, or nothing if the text is malformed.
-/
namespace FleetCatalog.Toml

def isBlank (c : Char) : Bool := c = ' ' || c = '\t'

def skipBlanks (cs : List Char) : List Char := cs.dropWhile isBlank

/-- The text after a line end, if there is one at the front. -/
def newline? : List Char → Option (List Char)
  | '\n' :: r => some r
  | '\r' :: '\n' :: r => some r
  | _ => none

/-- Characters that stand for themselves: no controls but the tab. -/
def isPlain (c : Char) : Bool := c = '\t' || (decide (32 ≤ c.toNat) && c.toNat != 127)

def isBasicChar (c : Char) : Bool := isPlain c && c != '"' && c != '\\'

def isLiteralChar (c : Char) : Bool := isPlain c && c != '\''

def digitValue (c : Char) : Nat :=
  if c ≤ '9' then c.toNat - 48 else if c ≤ 'Z' then c.toNat - 55 else c.toNat - 87

/-- Whether a character is a digit in a base up to sixteen. -/
def isDigitIn (base : Nat) (c : Char) : Bool :=
  (c.isDigit || ('a' ≤ c && c ≤ 'f') || ('A' ≤ c && c ≤ 'F')) && decide (digitValue c < base)

def valueIn (base : Nat) (ds : List Char) : Nat := ds.foldl (fun n d => n * base + digitValue d) 0

/-- The character whose code point stands in `n` hexadecimal digits. -/
def codePoint (n : Nat) (cs : List Char) : Option (Char × List Char) :=
  let ds := cs.take n
  let v := valueIn 16 ds
  if ds.length = n ∧ ds.all (isDigitIn 16) ∧ v.isValidChar then some (Char.ofNat v, cs.drop n)
  else none

/-- The character of an escape, after the backslash. -/
def escaped : List Char → Option (Char × List Char)
  | 'b' :: r => some ('\x08', r)
  | 't' :: r => some ('\t', r)
  | 'n' :: r => some ('\n', r)
  | 'f' :: r => some ('\x0c', r)
  | 'r' :: r => some ('\r', r)
  | '"' :: r => some ('"', r)
  | '\\' :: r => some ('\\', r)
  | 'u' :: r => codePoint 4 r
  | 'U' :: r => codePoint 8 r
  | _ => none

/-- A string on one line with escapes, after its opening quotation mark. -/
def basicString : Nat → List Char → List Char → Option (String × List Char)
  | 0, _, _ => none
  | n + 1, read, cs =>
    match cs with
    | '"' :: r => some (String.ofList read.reverse, r)
    | '\\' :: r => do
      let (c, r) ← escaped r
      basicString n (c :: read) r
    | c :: r => if isBasicChar c then basicString n (c :: read) r else none
    | [] => none

/-- A string on one line without escapes, after its opening mark. -/
def literalString (cs : List Char) : Option (String × List Char) :=
  match cs.dropWhile isLiteralChar with
  | '\'' :: r => some (String.ofList (cs.takeWhile isLiteralChar), r)
  | _ => none

/-- Without blanks and line ends at the front. -/
def skipLineEnds : Nat → List Char → List Char
  | 0, cs => cs
  | n + 1, cs =>
    match newline? (skipBlanks cs) with
    | some r => skipLineEnds n r
    | none => skipBlanks cs

/-- The text after a backslash at the end of a line: it joins the next text that is not blank. -/
def joined? (cs : List Char) : Option (List Char) :=
  (newline? (skipBlanks cs)).map fun r => skipLineEnds r.length r

/-- A string of several lines, after its opening marks. Up to two marks stand for themselves, also
in front of the three that close the string. -/
def multiline (mark : Char) (escapes : Bool) : Nat → List Char → List Char →
    Option (String × List Char)
  | 0, _, _ => none
  | n + 1, read, cs =>
    let marks := cs.takeWhile (· == mark)
    if 0 < marks.length then
      let rest := cs.dropWhile (· == mark)
      if marks.length < 3 then multiline mark escapes n (marks ++ read) rest
      else if marks.length ≤ 5 then
        some (String.ofList ((List.replicate (marks.length - 3) mark ++ read).reverse), rest)
      else none
    else
      match newline? cs with
      | some r => multiline mark escapes n ('\n' :: read) r
      | none =>
        match cs with
        | '\\' :: r =>
          if escapes then
            match joined? r with
            | some r => multiline mark escapes n read r
            | none =>
              match escaped r with
              | some (c, r) => multiline mark escapes n (c :: read) r
              | none => none
          else multiline mark escapes n ('\\' :: read) r
        | c :: r => if isPlain c then multiline mark escapes n (c :: read) r else none
        | [] => none

/-- A line end directly after the opening marks does not count. -/
def afterOpening (cs : List Char) : List Char := (newline? cs).getD cs

/-- A string of any of the four kinds. -/
def string? : List Char → Option (String × List Char)
  | '"' :: '"' :: '"' :: r => multiline '"' true (r.length + 1) [] (afterOpening r)
  | '\'' :: '\'' :: '\'' :: r => multiline '\'' false (r.length + 1) [] (afterOpening r)
  | '"' :: r => basicString (r.length + 1) [] r
  | '\'' :: r => literalString r
  | _ => none

/-- The digits that follow, single underscores between two of them being dropped. -/
def moreDigits (base : Nat) : List Char → Option (List Char × List Char)
  | '_' :: d :: r =>
    if isDigitIn base d then (moreDigits base r).map fun p => (d :: p.1, p.2) else none
  | ['_'] => none
  | d :: r =>
    if isDigitIn base d then (moreDigits base r).map fun p => (d :: p.1, p.2)
    else some ([], d :: r)
  | [] => some ([], [])

/-- Digits, at least one, with underscores between them. -/
def digits (base : Nat) : List Char → Option (List Char × List Char)
  | d :: r =>
    if isDigitIn base d then (moreDigits base r).map fun p => (d :: p.1, p.2) else none
  | [] => none

/-- Decimal digits that begin with zero only if there is no other. -/
def wholeDigits : List Char → Option (List Char × List Char)
  | '0' :: r => some (['0'], r)
  | cs => digits 10 cs

/-- A sign, negative or not, if there is one. -/
def sign : List Char → Bool × List Char
  | '-' :: r => (true, r)
  | '+' :: r => (false, r)
  | cs => (false, cs)

/-- A power of ten, zero if there is none. -/
def power : List Char → Option (Int × List Char)
  | c :: r =>
    if c = 'e' ∨ c = 'E' then do
      let (negative, r) := sign r
      let (ds, r) ← digits 10 r
      let n : Int := valueIn 10 ds
      return (if negative then -n else n, r)
    else some (0, c :: r)
  | [] => some (0, [])

/-- A floating-point number; one that is too large upwards is refused. -/
def float (negative : Bool) (ds : List Char) (exponent : Int) : Option Setting :=
  let x := Double.ofDecimal negative (valueIn 10 ds) exponent
  if x.isInfinite ∧ ¬ negative then none else some (.float x)

def integer (n : Int) : Option Setting :=
  if -Text.signedBound ≤ n ∧ n < Text.signedBound then some (.integer n) else none

/-- A number in decimal, after its sign. -/
def decimal (negative : Bool) (cs : List Char) : Option (Setting × List Char) := do
  let (whole, r) ← wholeDigits cs
  match r with
  | '.' :: r =>
    let (frac, r) ← digits 10 r
    let (e, r) ← power r
    let v ← float negative (whole ++ frac) (e - frac.length)
    return (v, r)
  | c :: _ =>
    if c = 'e' ∨ c = 'E' then
      let (e, r) ← power r
      let v ← float negative whole e
      return (v, r)
    else
      let n : Int := valueIn 10 whole
      let v ← integer (if negative then -n else n)
      return (v, r)
  | [] =>
    let n : Int := valueIn 10 whole
    let v ← integer (if negative then -n else n)
    return (v, [])

/-- An integer in another base, after the letter that names it. -/
def inBase (base : Nat) (cs : List Char) : Option (Setting × List Char) := do
  let (ds, r) ← digits base cs
  let v ← integer (valueIn base ds)
  return (v, r)

/-- A number of any kind. A base other than ten takes no sign. -/
def number (cs : List Char) : Option (Setting × List Char) :=
  match cs with
  | '0' :: 'x' :: r => inBase 16 r
  | '0' :: 'o' :: r => inBase 8 r
  | '0' :: 'b' :: r => inBase 2 r
  | _ =>
    let (negative, r) := sign cs
    match r with
    | 'i' :: 'n' :: 'f' :: r => some (.float (Double.infinity negative), r)
    | 'n' :: 'a' :: 'n' :: r => some (.float (Double.notANumber negative), r)
    | r => decimal negative r

end FleetCatalog.Toml
