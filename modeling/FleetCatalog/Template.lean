import FleetCatalog.Text.Split
/-!
# Templates

A template is text with references. Read from the left, `$$` is a dollar, `$` before an opening
brace starts a reference that runs to the next closing brace, and any other dollar stands for
itself. The scan gives the segments in normal form: no literal is empty and no two are adjacent.
-/
namespace FleetCatalog

/-- A part of a template, by its characters. -/
inductive Segment
  | literal (text : List Char)
  | reference (path : List Char)
  deriving DecidableEq, Inhabited

namespace Template

/-- Puts a literal character in front, into the literal that is there if there is one. -/
def pushLiteral (c : Char) : List Segment → List Segment
  | .literal text :: r => .literal (c :: text) :: r
  | r => .literal [c] :: r

mutual
/-- The segments of a template; none if a reference is not closed. -/
def scan : List Char → Option (List Segment)
  | [] => some []
  | '$' :: '$' :: r => (scan r).map (pushLiteral '$')
  | '$' :: '{' :: r => (scanReference r).map fun p => .reference p.1 :: p.2
  | c :: r => (scan r).map (pushLiteral c)

/-- The path of a reference that has been opened, and the segments behind it. -/
def scanReference : List Char → Option (List Char × List Segment)
  | [] => none
  | '}' :: r => (scan r).map fun segments => ([], segments)
  | c :: r => (scanReference r).map fun p => (c :: p.1, p.2)
end

/-- A literal with every dollar doubled. -/
def escape : List Char → List Char
  | [] => []
  | c :: r => if c = '$' then '$' :: '$' :: escape r else c :: escape r

/-- A segment as it is written. -/
def printSegment : Segment → List Char
  | .literal text => escape text
  | .reference path => '$' :: '{' :: path ++ ['}']

/-- Segments written one after another. -/
def print (segments : List Segment) : List Char := segments.flatMap printSegment

end Template
end FleetCatalog
