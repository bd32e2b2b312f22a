import FleetCatalog.Record
/-!
# Catalogs

A catalog is a named set of properties that may inherit from a parent catalog. It is kept and
exchanged in an envelope with an API version, a kind and its name; the generation belongs to
the store and is not part of the envelope.
-/
namespace FleetCatalog

/-- The part of a catalog that its author writes. -/
structure CatalogSpec where
  name : String := ""
  kind : String := ""
  /-- The catalog from which absent fields are inherited. -/
  parentName : Option String := none
  properties : Mapping := []
  metadata : SortedMap String := ∅
  /-- The tag of the stored revision; empty when there is none. -/
  generation : String := ""
  deriving DecidableEq, Inhabited

namespace CatalogSpec

/-- The parent, an empty name standing for none. -/
def parent (s : CatalogSpec) : Option String := s.parentName.filter fun p => decide (p ≠ "")

/-- The same specification under another parent. -/
def withParent (s : CatalogSpec) (p : String) : CatalogSpec := { s with parentName := some p }

def declared : List String := ["name", "type", "parentName", "properties", "metadata", "generation"]

def setField (key : String) (v : Value) (s : CatalogSpec) : Except DecodeError CatalogSpec :=
  match key with
  | "name" => (Decode.text v).map fun x => { s with name := x }
  | "type" => (Decode.text v).map fun x => { s with kind := x }
  | "parentName" => (Decode.optional Decode.text v).map fun x => { s with parentName := x }
  | "properties" => (Decode.mapping v).map fun x => { s with properties := x }
  | "metadata" => (Decode.sorted Decode.text v).map fun x => { s with metadata := x }
  | "generation" => (Decode.text v).map fun x => { s with generation := x }
  | _ => .ok s

def decode : Value → Except DecodeError CatalogSpec :=
  Decode.record "CatalogSpec" declared setField {}

def encode (s : CatalogSpec) : Value :=
  .mapping <|
    Encode.textUnlessEmpty "name" s.name ++
    Encode.textUnlessEmpty "type" s.kind ++
    Encode.unlessAbsent "parentName" (s.parentName.map .string) ++
    [("properties", .mapping s.properties)] ++
    Encode.textsUnlessEmpty "metadata" s.metadata ++
    Encode.textUnlessEmpty "generation" s.generation

instance : Record CatalogSpec := ⟨decode, encode⟩

end CatalogSpec

/-- A catalog under its id. -/
structure Catalog where
  id : String
  spec : CatalogSpec
  deriving DecidableEq, Inhabited

/-- Sameness of catalogs: of their ids and of the values in their specifications. -/
def Catalog.Same (a b : Catalog) : Prop := a.id = b.id ∧ Value.Same a.spec.encode b.spec.encode

instance (a b : Catalog) : Decidable (Catalog.Same a b) := inferInstanceAs (Decidable (_ ∧ _))

/-- The name in a catalog's envelope. -/
structure CatalogMetadata where
  name : String
  deriving DecidableEq, Inhabited

namespace CatalogMetadata

def setField (key : String) (v : Value) (name : Option String) :
    Except DecodeError (Option String) :=
  match key with
  | "name" => (Decode.text v).map some
  | _ => .ok name

def decode (v : Value) : Except DecodeError CatalogMetadata := do
  let name ← Decode.record "CatalogMetadata" ["name"] setField none v
  let name ← Decode.required v "CatalogMetadata" "name" 1 name
  return { name }

def encode (m : CatalogMetadata) : Value := .mapping [("name", .string m.name)]

instance : Record CatalogMetadata := ⟨decode, encode⟩

end CatalogMetadata

/-- The envelope in which a catalog is kept. -/
structure CatalogDocument where
  apiVersion : String
  kind : String
  metadata : CatalogMetadata
  spec : CatalogSpec
  status : Option Value := none
  deriving DecidableEq, Inhabited

namespace CatalogDocument

/-- An envelope of which some fields are still to be read. -/
structure Draft where
  apiVersion : Option String := none
  kind : Option String := none
  metadata : Option CatalogMetadata := none
  spec : Option CatalogSpec := none
  status : Option Value := none

def declared : List String := ["apiVersion", "kind", "metadata", "spec", "status"]

def setField (key : String) (v : Value) (d : Draft) : Except DecodeError Draft :=
  match key with
  | "apiVersion" => (Decode.text v).map fun x => { d with apiVersion := some x }
  | "kind" => (Decode.text v).map fun x => { d with kind := some x }
  | "metadata" => (CatalogMetadata.decode v).map fun x => { d with metadata := some x }
  | "spec" => (CatalogSpec.decode v).map fun x => { d with spec := some x }
  | "status" => (Decode.optional .ok v).map fun x => { d with status := x }
  | _ => .ok d

def decode (v : Value) : Except DecodeError CatalogDocument := do
  let d ← Decode.record "CatalogDocument" declared setField {} v
  let apiVersion ← Decode.required v "CatalogDocument" "apiVersion" 5 d.apiVersion
  let kind ← Decode.required v "CatalogDocument" "kind" 5 d.kind
  let metadata ← Decode.required v "CatalogDocument" "metadata" 5 d.metadata
  let spec ← Decode.required v "CatalogDocument" "spec" 5 d.spec
  return { apiVersion, kind, metadata, spec, status := d.status }

def encode (d : CatalogDocument) : Value :=
  .mapping <|
    [("apiVersion", .string d.apiVersion), ("kind", .string d.kind),
      ("metadata", d.metadata.encode), ("spec", d.spec.encode)] ++
    Encode.unlessAbsent "status" d.status

instance : Record CatalogDocument := ⟨decode, encode⟩

/-- The API group of the envelope. -/
def group : String := "federation.catalog"

/-- A catalog in its envelope, without the generation. -/
def ofCatalog (c : Catalog) : CatalogDocument where
  apiVersion := group ++ "/v1"
  kind := "Catalog"
  metadata := ⟨c.id⟩
  spec := { c.spec with generation := "" }

/-- The catalog in an envelope, with the store's tag as its generation. -/
def toCatalog (d : CatalogDocument) (tag : String) : Catalog :=
  ⟨d.metadata.name, { d.spec with generation := tag }⟩

end CatalogDocument
end FleetCatalog
