import FleetCatalog.Value
/-!
# Compact text of a value

The text form in which values are exchanged: no blanks, entries in their order, a quotation mark,
a backslash and the characters below the space escaped, everything else as it is.
-/
namespace FleetCatalog.Value

/-- A hexadecimal digit in lower case. -/
def hexDigit (d : Nat) : Char := if d < 10 then Char.ofNat (48 + d) else Char.ofNat (87 + d)

/-- A character inside a quoted text. -/
def escape (c : Char) : List Char :=
  match c with
  | '"' => ['\\', '"']
  | '\\' => ['\\', '\\']
  | '\x08' => ['\\', 'b']
  | '\x0c' => ['\\', 'f']
  | '\n' => ['\\', 'n']
  | '\r' => ['\\', 'r']
  | '\t' => ['\\', 't']
  | c =>
    if c.toNat < 32 then ['\\', 'u', '0', '0', hexDigit (c.toNat / 16), hexDigit (c.toNat % 16)]
    else [c]

/-- A string between quotation marks. -/
def quoted (s : String) : String :=
  "\"" ++ String.ofList (s.toList.flatMap escape) ++ "\""

mutual
/-- The compact text of a value. -/
def text : Value → String
  | null => "null"
  | bool b => if b then "true" else "false"
  | number n => String.ofList n.text
  | string s => quoted s
  | sequence items => "[" ++ ",".intercalate (textItems items) ++ "]"
  | mapping fs => "\x7b" ++ ",".intercalate (textFields fs) ++ "\x7d"

def textItems : List Value → List String
  | [] => []
  | v :: r => text v :: textItems r

def textFields : List (String × Value) → List String
  | [] => []
  | (k, v) :: r => (quoted k ++ ":" ++ text v) :: textFields r
end

end FleetCatalog.Value
