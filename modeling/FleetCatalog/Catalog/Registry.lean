import FleetCatalog.Catalog.Ancestry
import FleetCatalog.Catalog.Announcement
import FleetCatalog.Error
/-!
# Admission of catalogs

A catalog is admitted to the store if it satisfies the schema it names, if it names one, and if
its chain of parents is complete and does not lead back to it. Admitted catalogs are announced.
-/
namespace FleetCatalog

/-- The metadata key that names the schema of a catalog. -/
def schemaKey : String := "schema"

/-- The property of a schema catalog that holds the schema. -/
def schemaProperty : String := "spec"

/-- An answer, the store after it and what was announced. -/
structure Outcome (σ α : Type) where
  answer : Except Error α
  store : σ
  events : List Announcement := []

/-- Manages the catalogs of a store, announcing what it writes if it has a publisher. -/
structure Registry where
  publishes : Bool := true
  deriving DecidableEq, Inhabited

namespace Registry
variable {σ : Type} [CatalogStore σ]

/-- The schema that the catalog `name` holds. -/
def schema (s : σ) (name : String) : Except Error Schema :=
  match CatalogStore.get s name with
  | .error (.notFound _ _) => .error (.refused (.schemaMissing name))
  | .error cause => .error (.store cause)
  | .ok c =>
    match Fields.get? schemaProperty c.spec.properties with
    | none => .error (.refused (.schemaWithoutSpec name))
    | some v => (Schema.decode v).mapError fun cause => .refused (.schemaInvalid name cause)

/-- How a specification offends against the schema it names; without a schema, not at all. -/
def validate (s : σ) (spec : CatalogSpec) : Except Error (SortedMap Violation) :=
  match spec.metadata.get? schemaKey with
  | none => .ok ∅
  | some name => (schema s name).map fun sch => sch.violations spec.properties

/-- Checks that every catalog up the chain of parents is there and that `name` is not among
them. -/
def checkParents (s : σ) (name : String) (spec : CatalogSpec) : Except Error Unit :=
  match spec.parent with
  | none => .ok ()
  | some first =>
    match (Ancestry.walk (α := Empty) s (fun _ => none) name first).outcome with
    | .ok _ => .ok ()
    | .error (.repeated id) => .error (.cycle (.parentLeadsBack id name))
    | .error (.failed id (.notFound _ _)) => .error (.refused (.parentMissing id name))
    | .error (.failed _ cause) => .error (.store cause)

/-- Whether a specification may be stored under a name. -/
def accept (s : σ) (name : String) (spec : CatalogSpec) : Except Error Unit := do
  let found ← validate s spec
  if found.isEmpty then checkParents s name spec else .error (.refused (.violations found))

/-- Stores a specification that is admitted, and gives its new tag. -/
def upsert (m : Registry) (s : σ) (name : String) (spec : CatalogSpec) : Outcome σ String :=
  match accept s name spec with
  | .error e => ⟨.error e, s, []⟩
  | .ok () =>
    match CatalogStore.upsert s name ⟨name, spec⟩ with
    | (.error cause, s) => ⟨.error (.store cause), s, []⟩
    | (.ok tag, s) => ⟨.ok tag, s, if m.publishes then [⟨name, spec⟩] else []⟩

def get (s : σ) (name : String) : Except Error Catalog := (CatalogStore.get s name).mapError .store

def list (s : σ) : Except Error (List Catalog) := (CatalogStore.list s).mapError .store

def delete (s : σ) (name : String) : Outcome σ Unit :=
  let (answer, s) := CatalogStore.delete s name
  ⟨answer.mapError .store, s, []⟩

/-- How a manager shows itself. -/
def describe (m : Registry) : String :=
  "CatalogManager \x7b publisher: " ++ (if m.publishes then "true" else "false") ++ ", .. \x7d"

end Registry
end FleetCatalog
