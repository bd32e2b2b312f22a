import FleetCatalog.Text.Printable
/-!
# Quoted text in messages

A text between quotation marks as messages show it: the usual short escapes, and the code point in
braces for whatever cannot be printed. A single quote stands for itself.
-/
namespace FleetCatalog.Text

/-- A natural in lower-case hexadecimal. -/
def hexText (n : Nat) : List Char := Nat.toDigits 16 n

/-- A character inside the quotation marks. -/
def showChar (c : Char) : List Char :=
  match c with
  | '"' => ['\\', '"']
  | '\\' => ['\\', '\\']
  | '\x00' => ['\\', '0']
  | '\t' => ['\\', 't']
  | '\r' => ['\\', 'r']
  | '\n' => ['\\', 'n']
  | c => if isPrintable c then [c] else ['\\', 'u', '{'] ++ hexText c.toNat ++ ['}']

/-- A text between quotation marks. -/
def quoted (s : String) : String := String.ofList ('"' :: s.toList.flatMap showChar ++ ['"'])

end FleetCatalog.Text
