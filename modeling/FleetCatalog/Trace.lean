import FleetCatalog.Error
import FleetCatalog.Journal
/-!
# Tracing

Resolving every string leaf of a value. A leaf that evaluates to a string is done; anything else
it evaluates to is traced in its turn, in a further round. Rounds are limited, the depth of
sequences and mappings is not.
-/
namespace FleetCatalog

namespace Trace

/-- The number of rounds in which the result of a leaf may be traced again. -/
def limit : Nat := 64

/-- Evaluates one template and records it. -/
def ask (e : Evaluator) (c : Context) (template : String) : Journal String Error Value :=
  .ask template ((e template c).mapError .eval)

/-- Resolves one string leaf in no more than the given number of further rounds. -/
def expand (e : Evaluator) (c : Context) : Nat → String → Journal String Error Value
  | 0, template => do
    match ← ask e c template with
    | .string s => return .string s
    | _ => .fail (.cycle (.expansionTooDeep limit))
  | rounds + 1, template => do
    match ← ask e c template with
    | .string s => return .string s
    | v => v.traverse (expand e c rounds)

/-- Resolves the leaves of a value in a context that is already specialised. -/
def resolve (e : Evaluator) (c : Context) (v : Value) : Journal String Error Value :=
  v.traverse (expand e c limit)

/-- Resolves the values of a mapping, keeping its keys and their order. -/
def resolveMapping (e : Evaluator) (c : Context) (fs : Mapping) : Journal String Error Mapping :=
  Value.traverseFields (expand e c limit) fs

end Trace

/-- Resolves the leaves of values against a base context. -/
structure Tracer where
  evaluator : Evaluator
  base : Context := {}

namespace Tracer

/-- A value traced against the base specialised by an overlay, with the templates evaluated. -/
def journal (t : Tracer) (overlay : Overlay) (v : Value) : Journal String Error Value :=
  Trace.resolve t.evaluator (t.base.specialise overlay) v

/-- A mapping traced value by value, with the templates evaluated. -/
def mappingJournal (t : Tracer) (overlay : Overlay) (fs : Mapping) : Journal String Error Mapping :=
  Trace.resolveMapping t.evaluator (t.base.specialise overlay) fs

/-- A traced value. No part of it is given if a part fails. -/
def trace (t : Tracer) (overlay : Overlay) (v : Value) : Except Error Value :=
  (t.journal overlay v).outcome

def traceMapping (t : Tracer) (overlay : Overlay) (fs : Mapping) : Except Error Mapping :=
  (t.mappingJournal overlay fs).outcome

end Tracer
end FleetCatalog
