import FleetCatalog.Template
import FleetCatalog.Template.Reference
/-!
# Evaluation of templates

A template that is one reference stands for the value referred to, of any shape. Any other
template stands for text: its literals and the texts of the scalars referred to, in order.
-/
namespace FleetCatalog.Template

/-- A scalar as text; null is empty. -/
def scalarText (path : List Char) : Value → Except EvalError (List Char)
  | .null => .ok []
  | .bool b => .ok (if b then ['t', 'r', 'u', 'e'] else ['f', 'a', 'l', 's', 'e'])
  | .number n => .ok n.text
  | .string s => .ok s.toList
  | .sequence _ => .error (.nonScalar (String.ofList path))
  | .mapping _ => .error (.nonScalar (String.ofList path))

/-- The text of one segment. -/
def renderSegment (c : Context) : Segment → Except EvalError (List Char)
  | .literal text => .ok text
  | .reference path => c.resolve path >>= scalarText path

/-- The texts of segments one after another, or the error of the first that has none. -/
def renderAll (c : Context) : List Segment → Except EvalError (List Char)
  | [] => .ok []
  | s :: r => do
    let text ← renderSegment c s
    let rest ← renderAll c r
    return text ++ rest

/-- The value of scanned segments. -/
def evaluateSegments (c : Context) : List Segment → Except EvalError Value
  | [.reference path] => c.resolve path
  | segments => (renderAll c segments).map fun text => .string (String.ofList text)

/-- The value of a template. No reference is looked up unless all of them are closed. -/
def evaluate : Evaluator := fun template c =>
  match scan template.toList with
  | none => .error (.unclosed template)
  | some segments => evaluateSegments c segments

end FleetCatalog.Template
