import FleetCatalog.Catalog.Ancestry
import FleetCatalog.Trace
/-!
# Reading configuration

The fields of catalogs and their resolution. A field that a catalog does not hold is inherited
from the nearest ancestor that does. Only what the catalog itself holds is traced; what is
inherited is given as it is stored.
-/
namespace FleetCatalog

namespace Configuration
variable {σ : Type} [CatalogStore σ]

/-- The field as the nearest ancestor of `origin` stores it, from the parent `first` upwards. -/
def inherited (s : σ) (origin field first : String) : Journal String Error Value :=
  let walk := Ancestry.walk s (fun c => Fields.get? field c.spec.properties) origin first
  { asked := walk.asked
    outcome :=
      match walk.outcome with
      | .ok (some v) => .ok v
      | .ok none => .error (.fieldNotFound field origin)
      | .error (.repeated id) => .error (.cycle (.chainRepeats id origin))
      | .error (.failed _ cause) => .error (.store cause) }

/-- Reads a field, recording the catalogs that are fetched. -/
def readJournal (t : Tracer) (s : σ) (overlay : Overlay) (object field : String) :
    Journal String Error Value := do
  let c ← .ask object ((CatalogStore.get s object).mapError .store)
  match Fields.get? field c.spec.properties with
  | some v => .lift (t.trace overlay v)
  | none =>
    match c.spec.parent with
    | some first => inherited s object field first
    | none => .fail (.fieldNotFound field object)

/-- The value of a field. -/
def read (t : Tracer) (s : σ) (overlay : Overlay) (object field : String) : Except Error Value :=
  (readJournal t s overlay object field).outcome

/-- Adds a traced property to an object. A mapping is spliced in: its entries are added where
their keys are not taken. Anything else is set under its own key. -/
def splice (acc : Mapping) (key : String) : Value → Mapping
  | .mapping fs =>
    fs.foldl (fun acc e => if (Fields.get? e.1 acc).isSome then acc else Fields.put e.1 e.2 acc) acc
  | v => Fields.put key v acc

/-- All properties of a catalog, traced and spliced in order. -/
def readObject (t : Tracer) (s : σ) (overlay : Overlay) (object : String) :
    Except Error Mapping := do
  let c ← (CatalogStore.get s object).mapError .store
  c.spec.properties.foldlM (fun acc e => (t.trace overlay e.2).map (splice acc e.1)) []

end Configuration
end FleetCatalog
