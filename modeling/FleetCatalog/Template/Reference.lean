import FleetCatalog.Context
import FleetCatalog.Text.Blank
import FleetCatalog.Text.Numeral
import FleetCatalog.Text.Split
/-!
# References into a context

A reference names a root of the context and, after points, the steps down from it: the keys of
mappings and the indices of sequences. The path is read without the white space around it, but
messages show it as it was written.
-/
namespace FleetCatalog

/-- Why a template has no value. -/
inductive EvalError
  /-- The path leads nowhere. -/
  | referenceNotFound (path : String)
  /-- The path has an empty step or an unknown root. -/
  | invalidPath (path : String)
  /-- A sequence or mapping stands where text is wanted. -/
  | nonScalar (path : String)
  /-- A reference is not closed. -/
  | unclosed (template : String)
  /-- An evaluator of another kind reports a failure. -/
  | failed (reason : String)
  deriving DecidableEq, Inhabited

namespace EvalError

def message : EvalError → String
  | referenceNotFound p => "referenced path not found: " ++ p
  | invalidPath p => "invalid reference path: " ++ p
  | nonScalar p => "cannot interpolate non-scalar value: " ++ p
  | unclosed t => "unclosed reference (missing '\x7d') in '" ++ t ++ "'"
  | failed r => "evaluation failed: " ++ r

end EvalError

/-- Resolves a template in a context. -/
abbrev Evaluator := String → Context → Except EvalError Value

/-- One step down: by key in a mapping, by index in a sequence. -/
def Value.child (v : Value) (step : List Char) : Option Value :=
  match v with
  | .mapping fs => Fields.get? (String.ofList step) fs
  | .sequence items => (Text.unsigned? step).bind fun i => items[i]?
  | _ => none

/-- The value at the end of a path. -/
def Value.follow : Value → List (List Char) → Option Value
  | v, [] => some v
  | v, step :: rest => (v.child step).bind fun w => w.follow rest

namespace Context

/-- Where a path can start. -/
inductive Root
  | inputs
  | outputs
  | properties
  | value
  | deployment
  | component
  deriving DecidableEq

/-- The name of a root as it begins a path. -/
def Root.name : Root → String
  | inputs => "inputs"
  | outputs => "outputs"
  | properties => "properties"
  | value => "value"
  | deployment => "deployment"
  | component => "component"

def Root.all : List Root := [inputs, outputs, properties, value, deployment, component]

def Root.named? (name : String) : Option Root := Root.all.find? fun r => decide (r.name = name)

/-- The value at a root, if the context has one. -/
def root (c : Context) : Root → Option Value
  | .inputs => some (.mapping c.inputs)
  | .outputs => some (.mapping c.outputs)
  | .properties => some (.mapping c.properties)
  | .value => c.value
  | .deployment => c.deployment
  | .component => c.component.map .string

/-- The value that a reference stands for. -/
def resolve (c : Context) (path : List Char) : Except EvalError Value :=
  match Text.splitAt '.' (Text.trim path) with
  | [] => .error (.invalidPath (String.ofList path))
  | first :: rest =>
    if first.isEmpty || rest.any (·.isEmpty) then .error (.invalidPath (String.ofList path))
    else
      match Root.named? (String.ofList first) with
      | none => .error (.invalidPath (String.ofList path))
      | some r =>
        match (c.root r).bind fun v => v.follow rest with
        | some v => .ok v
        | none => .error (.referenceNotFound (String.ofList path))

end Context

/-- The value that an overlay puts at a root, if it supplies that part. -/
def Overlay.root (o : Overlay) : Context.Root → Option Value
  | .inputs => o.inputs.map .mapping
  | .outputs => o.outputs.map .mapping
  | .properties => o.properties.map .mapping
  | .value => o.value
  | .deployment => o.deployment
  | .component => o.component.map .string

namespace Context

/-- A context is known by what stands at its roots. -/
theorem ext_root {c c' : Context} (h : ∀ r, c.root r = c'.root r) : c = c' := by
  obtain ⟨inputs, outputs, value, properties, component, deployment⟩ := c
  obtain ⟨inputs', outputs', value', properties', component', deployment'⟩ := c'
  have hinputs := h .inputs
  have houtputs := h .outputs
  have hproperties := h .properties
  have hcomponent := h .component
  have hvalue : value = value' := h .value
  have hdeployment : deployment = deployment' := h .deployment
  simp only [root, Option.some.injEq, Value.mapping.injEq] at hinputs houtputs hproperties
  obtain rfl : component = component' :=
    Option.map_injective (fun _ _ => Value.string.inj) hcomponent
  rw [hinputs, houtputs, hproperties, hvalue, hdeployment]

theorem root_specialise (base : Context) (overlay : Overlay) (r : Root) :
    (base.specialise overlay).root r = (overlay.root r).or (base.root r) := by
  have hpart (own : Option Mapping) (inherited : Mapping) :
      some (Value.mapping (own.getD inherited)) =
        (own.map .mapping).or (some (.mapping inherited)) := by
    cases own <;> rfl
  cases r with
  | inputs => exact hpart overlay.inputs base.inputs
  | outputs => exact hpart overlay.outputs base.outputs
  | properties => exact hpart overlay.properties base.properties
  | value => rfl
  | deployment => rfl
  | component => exact Option.map_or

/-- A base is specialised to the context that has at each root what the overlay puts there, or else
what the base has. -/
theorem eq_specialise_iff {c base : Context} {overlay : Overlay} : c = base.specialise overlay ↔
    ∀ r, c.root r = (overlay.root r).or (base.root r) := by
  simp only [← root_specialise]
  constructor
  · rintro rfl r
    rfl
  · exact ext_root

end Context
end FleetCatalog
