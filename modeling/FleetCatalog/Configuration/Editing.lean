import FleetCatalog.Error
/-!
# Editing configuration

Changing the properties of a stored catalog: it is fetched, the copy is changed, and the copy is
written back at the generation at which it was fetched, so that no change of another writer in
between is lost.
-/
namespace FleetCatalog

namespace Configuration
variable {σ : Type} [CatalogStore σ]

/-- A change to the properties of a catalog. -/
inductive Edit
  | set (field : String) (value : Value)
  | setAll (properties : Mapping)
  | remove (field : String)
  deriving DecidableEq

/-- The properties of `object` after an edit. Only a field that is there can be removed. -/
def Edit.apply (object : String) (properties : Mapping) : Edit → Except Error Mapping
  | set field value => .ok (Fields.put field value properties)
  | setAll properties => .ok properties
  | remove field =>
    if (Fields.get? field properties).isSome then .ok (Fields.erase field properties)
    else .error (.fieldNotFound field object)

/-- The first half of an edit: the catalog is fetched and the copy is changed. It keeps the
generation at which it was fetched. -/
def prepare (s : σ) (object : String) (e : Edit) : Except Error Catalog := do
  let c ← (CatalogStore.get s object).mapError .store
  let properties ← e.apply object c.spec.properties
  return { c with spec := { c.spec with properties } }

/-- The second half of an edit: the changed copy is written. -/
def commit (s : σ) (object : String) (c : Catalog) : Except Error Unit × σ :=
  let (answer, s) := CatalogStore.upsert s object c
  ((answer.mapError .store).map fun _ => (), s)

/-- Edits a catalog in one go. -/
def edit (s : σ) (object : String) (e : Edit) : Except Error Unit × σ :=
  match prepare s object e with
  | .error err => (.error err, s)
  | .ok c => commit s object c

/-- Deletes a catalog. -/
def removeObject (s : σ) (object : String) : Except Error Unit × σ :=
  let (answer, s) := CatalogStore.delete s object
  (answer.mapError .store, s)

end Configuration
end FleetCatalog
