import FleetCatalog.Context
import FleetCatalog.Record
/-!
# Contexts as records

All parts of a context are optional; null for the value, the component or the deployment means
that there is none.
-/
namespace FleetCatalog.Context

def declared : List String :=
  ["inputs", "outputs", "value", "properties", "component", "deploymentSpec"]

def setField (key : String) (v : Value) (c : Context) : Except DecodeError Context :=
  match key with
  | "inputs" => (Decode.mapping v).map fun x => { c with inputs := x }
  | "outputs" => (Decode.mapping v).map fun x => { c with outputs := x }
  | "value" => (Decode.optional .ok v).map fun x => { c with value := x }
  | "properties" => (Decode.mapping v).map fun x => { c with properties := x }
  | "component" => (Decode.optional Decode.text v).map fun x => { c with component := x }
  | "deploymentSpec" => (Decode.optional .ok v).map fun x => { c with deployment := x }
  | _ => .ok c

def decode : Value → Except DecodeError Context :=
  Decode.record "EvaluationContext" declared setField {}

def encode (c : Context) : Value :=
  .mapping <|
    [("inputs", .mapping c.inputs), ("outputs", .mapping c.outputs)] ++
    Encode.unlessAbsent "value" c.value ++
    [("properties", .mapping c.properties)] ++
    Encode.unlessAbsent "component" (c.component.map .string) ++
    Encode.unlessAbsent "deploymentSpec" c.deployment

instance : Record Context := ⟨decode, encode⟩

/-- Sameness of contexts: of the values in their parts. -/
def Same (a b : Context) : Prop := Value.Same a.encode b.encode

instance (a b : Context) : Decidable (Same a b) := inferInstanceAs (Decidable (Value.Same _ _))

end FleetCatalog.Context
