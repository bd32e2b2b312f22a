import FleetCatalog.Record
/-!
# Solutions

A solution is a list of components, each with properties. Fields that are not named here are
kept in order, so that a solution is written back without losing them.
-/
namespace FleetCatalog

/-- One deployable unit of a solution. -/
structure Component where
  name : String
  kind : String := ""
  properties : Mapping := []
  /-- The fields that are not named here. -/
  extra : Mapping := []
  deriving DecidableEq, Inhabited

namespace Component

/-- A component of which the name is still to be read. -/
structure Draft where
  name : Option String := none
  kind : String := ""
  properties : Mapping := []

def declared : List String := ["name", "type", "properties"]

def setField (key : String) (v : Value) (d : Draft) : Except DecodeError Draft :=
  match key with
  | "name" => (Decode.text v).map fun x => { d with name := some x }
  | "type" => (Decode.text v).map fun x => { d with kind := x }
  | "properties" => (Decode.mapping v).map fun x => { d with properties := x }
  | _ => .ok d

/-- The fields of a mapping that are not among the declared ones, in order. -/
def others (fs : Mapping) : Mapping := fs.filter fun e => decide (e.1 ∉ declared)

def decode (v : Value) : Except DecodeError Component :=
  match v with
  | .mapping fs => do
    let d ← Decode.fields setField {} fs
    let name ← Decode.required v "ComponentSpec" "name" 3 d.name
    return { name, kind := d.kind, properties := d.properties, extra := others fs }
  | _ => .error (.wrongType v.found (.record "ComponentSpec"))

def encode (c : Component) : Value :=
  .mapping <|
    [("name", .string c.name)] ++
    Encode.textUnlessEmpty "type" c.kind ++
    [("properties", .mapping c.properties)] ++
    c.extra

instance : Record Component := ⟨decode, encode⟩

end Component

/-- What a solution consists of. -/
structure SolutionSpec where
  displayName : String := ""
  metadata : SortedMap String := ∅
  components : List Component := []
  /-- The fields that are not named here. -/
  extra : Mapping := []
  deriving DecidableEq, Inhabited

namespace SolutionSpec

def declared : List String := ["displayName", "metadata", "components"]

def setField (key : String) (v : Value) (s : SolutionSpec) : Except DecodeError SolutionSpec :=
  match key with
  | "displayName" => (Decode.text v).map fun x => { s with displayName := x }
  | "metadata" => (Decode.sorted Decode.text v).map fun x => { s with metadata := x }
  | "components" => (Decode.items Component.decode v).map fun x => { s with components := x }
  | _ => .ok s

/-- The fields of a mapping that are not among the declared ones, in order. -/
def others (fs : Mapping) : Mapping := fs.filter fun e => decide (e.1 ∉ declared)

def decode (v : Value) : Except DecodeError SolutionSpec :=
  match v with
  | .mapping fs => (Decode.fields setField {} fs).map fun s => { s with extra := others fs }
  | _ => .error (.wrongType v.found (.record "SolutionSpec"))

def encode (s : SolutionSpec) : Value :=
  .mapping <|
    Encode.textUnlessEmpty "displayName" s.displayName ++
    Encode.textsUnlessEmpty "metadata" s.metadata ++
    [("components", .sequence (s.components.map Component.encode))] ++
    s.extra

instance : Record SolutionSpec := ⟨decode, encode⟩

end SolutionSpec

/-- A stored solution, under its name in a scope. -/
structure Solution where
  name : String
  scope : String
  spec : SolutionSpec
  /-- The tag of the stored revision. -/
  tag : String
  deriving DecidableEq, Inhabited

/-- The scope of solutions that are addressed without one. -/
def defaultScope : String := "default"

end FleetCatalog
