import FleetCatalog.Decimal.Layout
/-!
# Points in time

A date, a time of day, or both, the last also with an offset from universal time. They are read
from their text, such as `1979-05-27`, `07:32:00.5` or `1979-05-27T00:32:00-07:00`, and written
back in one form: `T` between date and time, and no zeros at the end of a fraction.
-/
namespace FleetCatalog

structure Date where
  year : Nat
  month : Nat
  day : Nat
  deriving DecidableEq, Inhabited

/-- A time of day. -/
structure Clock where
  hour : Nat
  minute : Nat
  second : Nat
  nanosecond : Nat := 0
  deriving DecidableEq, Inhabited

/-- Where a time of day is meant: in universal time, or so many minutes ahead of it. -/
inductive Offset
  | universal
  | minutes (n : Int)
  deriving DecidableEq, Inhabited

inductive Moment
  | date (d : Date)
  | clock (t : Clock)
  | dateTime (d : Date) (t : Clock) (offset : Option Offset)
  deriving DecidableEq, Inhabited

namespace Moment

/-- The key whose value, a text, makes a point in time of the table that begins with it. -/
def reservedKey : String := "$__toml_private_datetime"

/-- The number of days in a month. -/
def daysIn (year month : Nat) : Nat :=
  if month = 2 then
    if year % 4 = 0 ∧ (year % 100 ≠ 0 ∨ year % 400 = 0) then 29 else 28
  else if month = 4 ∨ month = 6 ∨ month = 9 ∨ month = 11 then 30
  else 31

def digitsValue (ds : List Char) : Nat := ds.foldl (fun n c => 10 * n + (c.toNat - 48)) 0

/-- The natural that exactly `n` digits denote. -/
def digits (n : Nat) (cs : List Char) : Option (Nat × List Char) :=
  let ds := cs.take n
  if ds.length = n ∧ ds.all Char.isDigit then some (digitsValue ds, cs.drop n) else none

/-- The text after a given character. -/
def after (mark : Char) : List Char → Option (List Char)
  | c :: r => if c = mark then some r else none
  | [] => none

def readDate (cs : List Char) : Option (Date × List Char) := do
  let (year, r) ← digits 4 cs
  let (month, r) ← digits 2 (← after '-' r)
  let (day, r) ← digits 2 (← after '-' r)
  if 1 ≤ month ∧ month ≤ 12 ∧ 1 ≤ day ∧ day ≤ daysIn year month then
    return (⟨year, month, day⟩, r)
  else none

/-- The nanoseconds of a fraction, its digits after the ninth being dropped; none at all is zero. -/
def readFraction : List Char → Option (Nat × List Char)
  | '.' :: r =>
    match r.takeWhile Char.isDigit with
    | [] => none
    | ds => some (digitsValue (ds.rightpad 9 '0' |>.take 9), r.dropWhile Char.isDigit)
  | r => some (0, r)

/-- Hours go up to 24 and seconds up to 60. -/
def readClock (cs : List Char) : Option (Clock × List Char) := do
  let (hour, r) ← digits 2 cs
  let (minute, r) ← digits 2 (← after ':' r)
  let (second, r) ← digits 2 (← after ':' r)
  let (nanosecond, r) ← readFraction r
  if hour ≤ 24 ∧ minute ≤ 59 ∧ second ≤ 60 then return (⟨hour, minute, second, nanosecond⟩, r)
  else none

/-- A signed offset, at most a day. -/
def readShift (negative : Bool) (cs : List Char) : Option (Offset × List Char) := do
  let (hours, r) ← digits 2 cs
  let (minutes, r) ← digits 2 (← after ':' r)
  let n := hours * 60 + minutes
  if n ≤ 24 * 60 then return (.minutes (if negative then -(n : Int) else n), r) else none

/-- An offset, if there is one. -/
def readOffset : List Char → Option (Option Offset × List Char)
  | 'Z' :: r => some (some .universal, r)
  | 'z' :: r => some (some .universal, r)
  | '+' :: r => (readShift false r).map fun p => (some p.1, p.2)
  | '-' :: r => (readShift true r).map fun p => (some p.1, p.2)
  | r => some (none, r)

def readAny (cs : List Char) : Option (Moment × List Char) :=
  if cs[2]? = some ':' then (readClock cs).map fun p => (clock p.1, p.2)
  else do
    let (d, r) ← readDate cs
    match r with
    | c :: r =>
      if c = 'T' ∨ c = 't' ∨ c = ' ' then
        let (t, r) ← readClock r
        let (offset, r) ← readOffset r
        return (dateTime d t offset, r)
      else none
    | [] => return (date d, [])

/-- The point in time that a whole text denotes. -/
def ofString? (s : String) : Option Moment :=
  match readAny s.toList with
  | some (m, []) => some m
  | _ => none

/-- A natural in decimal with zeros in front, `width` digits at least. -/
def padded (width n : Nat) : List Char := (Double.naturalText n).leftpad width '0'

def dateText (d : Date) : List Char :=
  padded 4 d.year ++ '-' :: padded 2 d.month ++ '-' :: padded 2 d.day

def clockText (t : Clock) : List Char :=
  let fraction := ((padded 9 t.nanosecond).reverse.dropWhile (· == '0')).reverse
  padded 2 t.hour ++ ':' :: padded 2 t.minute ++ ':' :: padded 2 t.second ++
    (if fraction.isEmpty then [] else '.' :: fraction)

def offsetText : Offset → List Char
  | .universal => ['Z']
  | .minutes n =>
    (if n < 0 then '-' else '+') :: padded 2 (n.natAbs / 60) ++ ':' :: padded 2 (n.natAbs % 60)

/-- The text of a point in time. -/
def text : Moment → String
  | date d => String.ofList (dateText d)
  | clock t => String.ofList (clockText t)
  | dateTime d t offset =>
    String.ofList (dateText d ++ 'T' :: clockText t ++ (offset.map offsetText).getD [])

end Moment
end FleetCatalog
