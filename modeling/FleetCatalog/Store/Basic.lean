import FleetCatalog.Catalog
import FleetCatalog.Solution
/-!
# Stores

Where catalogs and solutions are kept. A catalog read from a store carries the tag of its
revision as its generation; one written back with a tag that is no longer current is refused,
so that no update is lost. A call gives its answer and the store after it.
-/
namespace FleetCatalog

/-- What a store keeps. -/
inductive StoredKind
  | catalog
  | solution
  deriving DecidableEq, Inhabited

def StoredKind.name : StoredKind → String
  | catalog => "catalog"
  | solution => "solution"

/-- Why a store refuses a call. -/
inductive StoreError
  /-- Nothing is stored under the id. -/
  | notFound (kind : StoredKind) (id : String)
  /-- The tag on a write is not the stored one; the stored one is empty if there is none. -/
  | conflict (kind : StoredKind) (id expected actual : String)
  /-- A stored record cannot be read. -/
  | unreadable (cause : DecodeError)
  /-- The storage behind the store fails. -/
  | backend (reason : String)
  deriving DecidableEq, Inhabited

namespace StoreError

def message : StoreError → String
  | notFound kind id => kind.name ++ " '" ++ id ++ "' not found"
  | conflict kind id expected actual =>
    kind.name ++ " '" ++ id ++ "' was modified concurrently: expected generation " ++ expected ++
      ", found " ++ actual
  | unreadable cause => "serialization error: " ++ cause.message
  | backend reason => "storage backend error: " ++ reason

end StoreError

/-- A store of catalogs. -/
class CatalogStore (σ : Type) where
  /-- The catalog under an id, with its tag. -/
  get : σ → String → Except StoreError Catalog
  /-- Stores a catalog under an id, whatever its own id, and gives the new tag. -/
  upsert : σ → String → Catalog → Except StoreError String × σ
  delete : σ → String → Except StoreError Unit × σ
  /-- The catalogs in the order of their ids. -/
  list : σ → Except StoreError (List Catalog)
  /-- No more than this many ids can be fetched successfully. -/
  size : σ → Nat

/-- A store of solutions by name and scope. -/
class SolutionStore (σ : Type) where
  get : σ → (name scope : String) → Except StoreError Solution
  upsert : σ → (name scope : String) → SolutionSpec → Except StoreError Unit × σ

/-- A record with the number of its revision, the first being one. -/
structure Stored (α : Type) where
  body : α
  generation : Nat
  deriving DecidableEq, Inhabited

/-- A revision number as a tag. -/
def generationTag (n : Nat) : String := String.ofList (Double.naturalText n)

/-- The name under which a solution is addressed in messages. -/
def solutionId (name scope : String) : String := scope ++ "/" ++ name

end FleetCatalog
