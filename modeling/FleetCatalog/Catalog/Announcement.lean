import FleetCatalog.Catalog
/-!
# Events

What subscribers are told when a catalog has been written. The kind of the catalog stands apart
from the body, so that subscribers can choose without reading it.
-/
namespace FleetCatalog

/-- A catalog was written with this specification. -/
structure Announcement where
  id : String
  body : CatalogSpec
  deriving DecidableEq, Inhabited

namespace Announcement

/-- The topic on which catalogs are announced. -/
def topic : String := "catalog"

/-- The kind of the catalog that was written. -/
def objectType (e : Announcement) : String := e.body.kind

def encode (e : Announcement) : Value :=
  .mapping
    [("metadata", .mapping [("objectType", .string e.objectType)]),
      ("id", .string e.id),
      ("action", .string "UPDATE"),
      ("body", e.body.encode)]

end Announcement
end FleetCatalog
